import Tag2now.Shared.CacheOutage
import Tag2now.Shared.CacheCoherence
import Tag2now.Shared.CacheThreads
import Tag2now.Transactions.RelyGuarantee
import Tag2now.Transactions.Table
import Tag2now.Transactions.Alone
import Tag2now.Records.Pairing
import Tag2now.History.RankRoom
import Tag2now.History.Days
import Tag2now.History.Hours
import Tag2now.Idempotency.Service
import Tag2now.Reservation.Seats
import Tag2now.Reservation.Cancelled
import Tag2now.Reservation.Conditions
import Tag2now.Reservation.Replay
import Tag2now.Reservation.Window
import Tag2now.Community.Listing
import Tag2now.Community.Pages
import Tag2now.Matching.Outage
import Tag2now.Streaming.Isolation
import Tag2now.Streaming.Marks
import Tag2now.Streaming.RoomMarks
import Tag2now.Popup.Images
import Tag2now.Event.Ranking
import Tag2now.Saves.Holders
import Tag2now.Community.Comments
import Tag2now.Community.Thumbs
import Tag2now.Community.Management
import Tag2now.Rpcn.Framing
import Tag2now.Matching.RoomFetches
import Tag2now.Matching.ClientUses
import Tag2now.Matching.RoomListing
import Tag2now.Matching.Connections
import Tag2now.Matching.Exclusion
import Tag2now.Records.Rows
import Tag2now.Records.Missed
import Tag2now.Records.Compare
import Tag2now.Records.Listing
import Tag2now.Records.Counts
import Tag2now.Chat.Convergence
import Tag2now.Chat.Flood
import Tag2now.Chat.Stores
import Tag2now.Records.Search
import Tag2now.History.Activity
import Tag2now.Popup.Stored
import Tag2now.Rpcn.Worlds
import Tag2now.Auth.Tokens
import Tag2now.Auth.Sessions
import Tag2now.App.Lifespan
import Tag2now.Matching.Scores
import Tag2now.History.Seen
import Tag2now.Shared.CacheKeys
import Tag2now.Event.Pages
import Tag2now.Records.Drain
import Tag2now.Shared.Failures
import Tag2now.Admin.Service
import Tag2now.Admin.Guarded
import Tag2now.Saves.AdminCalls
import Tag2now.Saves.AdminGuarded
import Tag2now.Community.Provenance
