import LightLivechat.Lib.Runs
import LightLivechat.Lib.Histories
import LightLivechat.Lib.Bytes
import LightLivechat.Lib.Serial
import LightLivechat.Lib.Ring
import LightLivechat.Lib.Walk
import LightLivechat.Lib.Checked
import LightLivechat.Lib.Std
import LightLivechat.Config
import LightLivechat.Error
import LightLivechat.Room.FloorLaws
import LightLivechat.Room.Bursts
import LightLivechat.Room.OffsetLaws
import LightLivechat.Room.Indices
import LightLivechat.Room.Addresses
import LightLivechat.Room.Ufrags
import LightLivechat.Room.Races
import LightLivechat.Transport.Authenticated
import LightLivechat.Transport.Checked.Dispatch
import LightLivechat.Lib.Truncate
import LightLivechat.Transport.Udp.TwccCoverage
import LightLivechat.Transport.Udp.RelayedBytes
import LightLivechat.Transport.Udp.Retransmission
import LightLivechat.Transport.Udp.Compound
import LightLivechat.Transport.Udp.Rtx
import LightLivechat.Transport.Udp.TwccSeq
import LightLivechat.Room.Keyframes
import LightLivechat.Ptt.Remap
import LightLivechat.Ptt.Repeats
import LightLivechat.Signaling.FloorHolder
import LightLivechat.Signaling.Ownership
import LightLivechat.Signaling.Outsiders
import LightLivechat.Signaling.Teardown
import LightLivechat.Signaling.Refusals
import LightLivechat.Signaling.Ssrcs
import LightLivechat.Signaling.TrackIds
import LightLivechat.Signaling.LateJoiners
import LightLivechat.Signaling.Beliefs
import LightLivechat.Transport.Stun.Response
import LightLivechat.Transport.Stun.Unsigned
import LightLivechat.Lib.Float
import LightLivechat.Transport.Udp.Remb
import LightLivechat.Room.RtpCaches
import LightLivechat.Transport.Stun.Walkers
import LightLivechat.Transport.Udp.TwccSerial
import LightLivechat.Lib.Channel
import LightLivechat.Lib.Components
import LightLivechat.Sfu.Isolation
import LightLivechat.Sfu.Handshakes
import LightLivechat.Sfu.Feedback
import LightLivechat.Sfu.Rtx
import LightLivechat.Sfu.Talk
import LightLivechat.Sfu.Departed
import LightLivechat.Sfu.Channels
import LightLivechat.Sfu.Connect
import LightLivechat.Sfu.Sent
