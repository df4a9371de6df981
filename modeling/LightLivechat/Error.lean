/-! The errors a room operation answers with, and their codes. -/

namespace LightLivechat

inductive LightError where
  | roomNotFound
  | roomFull
  | alreadyInRoom
  | notInRoom
  deriving DecidableEq

def LightError.code : LightError → Nat
  | .roomNotFound => 2001
  | .roomFull => 2002
  | .alreadyInRoom => 2003
  | .notInRoom => 2004

def LightError.toString : LightError → String
  | .roomNotFound => "[2001] room not found"
  | .roomFull => "[2002] room full"
  | .alreadyInRoom => "[2003] already in room"
  | .notInRoom => "[2004] not in room"

end LightLivechat
