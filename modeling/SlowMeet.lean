import SlowMeet.Media.Subscriptions
import SlowMeet.Media.Feedback
import SlowMeet.Media.Senders
import SlowMeet.Media.Limits
import SlowMeet.Signaling.Slots
import SlowMeet.Signaling.RosterAgreement
import SlowMeet.Signaling.Revocation
import SlowMeet.Signaling.MediaStates
import SlowMeet.Negotiation.Failures
import SlowMeet.Negotiation.Collision
import SlowMeet.Diagnostics.NetworkState
import SlowMeet.Signaling.Privacy
import SlowMeet.Media.Frames
import SlowMeet.RateLimit.Budget
import SlowMeet.Settings.Updates
import SlowMeet.Client.Sessions
import SlowMeet.Client.Sharing
import SlowMeet.Meeting.Queue
import SlowMeet.RateLimit.Sweeping
import SlowMeet.Media.Bitrate
import SlowMeet.RateLimit.ClientIP
import SlowMeet.Settings.ConnectionMethods
import SlowMeet.Negotiation.RemoteCandidates
import SlowMeet.Negotiation.LocalCandidates
import SlowMeet.Signaling.Reservations
import SlowMeet.Media.CameraLayers
import SlowMeet.Signaling.Chat
import SlowMeet.Settings.AdminForm
import SlowMeet.Diagnostics.CandidatePath
import SlowMeet.Client.ParticipantLayout
import SlowMeet.Negotiation.RequestQueue
import SlowMeet.Client.ScreenAdaptation
import SlowMeet.Client.VideoSubscriptions
import SlowMeet.Signaling.Expiry
import SlowMeet.Signaling.Continuity
import SlowMeet.Signaling.Streams
import SlowMeet.Signaling.MediaBound
import SlowMeet.Signaling.Identities
import SlowMeet.Signaling.Hands
import SlowMeet.Signaling.HandAgreement
import SlowMeet.Signaling.ShareStates
import SlowMeet.Signaling.ShareAgreement
import SlowMeet.Lib.Mailbox
import SlowMeet.Media.FrameRate
import SlowMeet.Media.Egress
import SlowMeet.Signaling.Outbound
import SlowMeet.Signaling.Capacity
import SlowMeet.Signaling.Gauge
import SlowMeet.Lib.Streak
import SlowMeet.Client.Adaptation
import SlowMeet.Client.Pins
import SlowMeet.Media.Pacing
import SlowMeet.Signaling.IceFailure
import SlowMeet.Client.RemoteVideo
import SlowMeet.Signaling.ChatOrder
import SlowMeet.Client.ChatRail
import SlowMeet.Http.Gzip
import SlowMeet.Http.StaticFiles
import SlowMeet.Client.RemoteTracks
import SlowMeet.Client.RemoteCameras
