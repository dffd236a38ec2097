import Spatiad.ServiceRuns
import Spatiad.SingleWinner
import Spatiad.OfferFinality
import Spatiad.HandOver
import Spatiad.Foundation.Decimal
import Spatiad.Foundation.Table
import Spatiad.Foundation.WriteAheadLog
import Spatiad.Rfc3339
import Spatiad.Databases
import Spatiad.CrashRuns
import Spatiad.CrashRecovery
import Spatiad.Cancellation
import Spatiad.Foundation.EventLog
import Spatiad.EventHistory
import Spatiad.Reconnects
import Spatiad.RateLimit
import Spatiad.Validation
import Spatiad.Api
import Spatiad.NewOffers
import Spatiad.Delivery
import Spatiad.OfferAnswers
import Spatiad.EventQueries
import Spatiad.QueryAgreement
import Spatiad.SequentialDispatch
import Spatiad.AnsweredOnce
import Spatiad.DoubleBooking
import Spatiad.LoggedMutations
import Spatiad.Foundation.Numerals
import Spatiad.Webhooks
import Spatiad.Foundation.Paging
import Spatiad.TimestampRoundTrip
import Spatiad.StoredPages
import Spatiad.EventPages
import Spatiad.DriverEntry
import Spatiad.Foundation.HoledLog
import Spatiad.LostAppends
import Spatiad.CommandEvents
import Spatiad.StoredEvents
import Spatiad.EventCompletion
import Spatiad.Foundation.Ranking
import Spatiad.NearestDrivers
import Spatiad.NearestOffers
import Spatiad.SearchReach
import Spatiad.JobStates
import Spatiad.ExpirySweeps
import Spatiad.AnswerFrame
import Spatiad.Foundation.SlidingWindow
import Spatiad.WindowLimits
import Spatiad.NonceReplay
import Spatiad.RetryAfter
import Spatiad.SignatureCheck
import Spatiad.SnapshotReads
import Spatiad.KindsFilter
import Spatiad.Foundation.JsNumber
import Spatiad.Foundation.Rounds
import Spatiad.EventReaders
import Spatiad.ReaderAgreement
import Spatiad.ResumedReading
import Spatiad.Foundation.Groups
import Spatiad.SpatialMirror
import Spatiad.RetainedEvents
import Spatiad.Foundation.Views
import Spatiad.Foundation.Restriction
import Spatiad.JobParts
import Spatiad.Foundation.Attempts
import Spatiad.Quiescence
import Spatiad.Restart
import Spatiad.Foundation.FormUrlencoded
import Spatiad.JobEventsUrls
import Spatiad.JobLives
import Spatiad.Foundation.Agendas
import Spatiad.Server
import Spatiad.ServerRuns
import Spatiad.SessionOffers
import Spatiad.Foundation.Scrolling
import Spatiad.EventReading
import Spatiad.Foundation.Tokens
import Spatiad.Deployment
import Spatiad.Foundation.Finishing
import Spatiad.Arrival
import Spatiad.AdmittedJobs
import Spatiad.DurableEvents
