import NodeBackend.Common.Masks
import NodeBackend.Core.RedisClient
import NodeBackend.Subscription.Concurrent
import NodeBackend.Subscription.DeleteRace
import NodeBackend.Events.Disconnection
import NodeBackend.User.Pairing
import NodeBackend.Queue.Worker
import NodeBackend.User.Passwords
import NodeBackend.User.Frozen
import NodeBackend.User.ListSecrecy
import NodeBackend.Hook.Exact
import NodeBackend.User.Emails
import NodeBackend.Subscription.Listing
import NodeBackend.Events.Rooms
import NodeBackend.Queue.Features
import NodeBackend.Queue.Deduplication
import NodeBackend.Hook.Concurrent
import NodeBackend.User.Detection
import NodeBackend.User.Lookup
import NodeBackend.User.Filters
import NodeBackend.User.Pages
import NodeBackend.Subscription.Codec
import NodeBackend.Common.Clone
import NodeBackend.Common.Endless
import NodeBackend.Common.Sharing
import NodeBackend.Hook.Rebuilt
import NodeBackend.User.Mapper
import NodeBackend.Core.KeyRemoval
import NodeBackend.File.FilePaths
import NodeBackend.Common.CustomThrottler
import NodeBackend.User.Sessions
import NodeBackend.User.SignUps
import NodeBackend.Events.Announcements
import NodeBackend.Hook.Board
import NodeBackend.File.Downloads
import NodeBackend.Common.Throttling
import NodeBackend.Events.ServerEvents
import NodeBackend.Api.ResponseInterceptor
import NodeBackend.Queue.Batches
import NodeBackend.Common.TreeText
import NodeBackend.Common.MaskedTree
