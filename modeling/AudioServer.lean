import AudioServer.Activity.Timeline
import AudioServer.Api.Authorization
import AudioServer.Api.Endpoints
import AudioServer.Api.Middleware
import AudioServer.Api.QueueView
import AudioServer.Api.Requests
import AudioServer.Api.Responses
import AudioServer.Api.Scopes
import AudioServer.Core.ClientAddress
import AudioServer.Core.Datetimes
import AudioServer.Core.Furigana
import AudioServer.Foundations.Blocks
import AudioServer.Foundations.Budgets
import AudioServer.Foundations.Calendar
import AudioServer.Foundations.Contention
import AudioServer.Foundations.Correspondence
import AudioServer.Foundations.Doubles
import AudioServer.Foundations.Files
import AudioServer.Foundations.Grouping
import AudioServer.Foundations.Histories
import AudioServer.Foundations.Intervals
import AudioServer.Foundations.Json
import AudioServer.Foundations.Numerals
import AudioServer.Foundations.Packing
import AudioServer.Foundations.Paging
import AudioServer.Foundations.Polling
import AudioServer.Foundations.Pools
import AudioServer.Foundations.Priorities
import AudioServer.Foundations.Ranks
import AudioServer.Foundations.Refinements
import AudioServer.Foundations.Requests
import AudioServer.Foundations.RowWrites
import AudioServer.Foundations.Runs
import AudioServer.Foundations.Scripts
import AudioServer.Foundations.Search
import AudioServer.Foundations.Segments
import AudioServer.Foundations.Sorting
import AudioServer.Foundations.Stepping
import AudioServer.Foundations.Trees
import AudioServer.Foundations.Trimming
import AudioServer.Foundations.Upserts
import AudioServer.Foundations.Uuids
import AudioServer.Foundations.Versions
import AudioServer.Jobs.Backoff
import AudioServer.Jobs.Calls
import AudioServer.Jobs.Effects
import AudioServer.Jobs.Fence
import AudioServer.Jobs.Transitions
import AudioServer.Processing.Analysis
import AudioServer.Processing.Chunks
import AudioServer.Processing.Conservation
import AudioServer.Processing.DayData
import AudioServer.Processing.DayDrafts
import AudioServer.Processing.DayRequests
import AudioServer.Processing.Diarization
import AudioServer.Processing.DraftGroups
import AudioServer.Processing.HeardText
import AudioServer.Processing.Merge
import AudioServer.Processing.ModelRuntime
import AudioServer.Processing.Reduction
import AudioServer.Processing.Replies
import AudioServer.Processing.SentenceBlocks
import AudioServer.Processing.SpeakerChoice
import AudioServer.Processing.SpeakerNames
import AudioServer.Processing.StoredQuotes
import AudioServer.Processing.Transcription
import AudioServer.Processing.Translation
import AudioServer.Processing.Utterances
import AudioServer.Services.ActiveJobs
import AudioServer.Services.Batches
import AudioServer.Services.Bookmarks
import AudioServer.Services.BoundedWork
import AudioServer.Services.BrowserUpload
import AudioServer.Services.Consistency
import AudioServer.Services.Daily
import AudioServer.Services.DayList
import AudioServer.Services.DayRange
import AudioServer.Services.DayReads
import AudioServer.Services.Days
import AudioServer.Services.DeletedAudio
import AudioServer.Services.DeletionFaults
import AudioServer.Services.Draining
import AudioServer.Services.Editing
import AudioServer.Services.FollowUp
import AudioServer.Services.Interleaving
import AudioServer.Services.LeaseOrder
import AudioServer.Services.LeaseRecovery
import AudioServer.Services.Leases
import AudioServer.Services.LiveLeases
import AudioServer.Services.ObjectFiles
import AudioServer.Services.Openings
import AudioServer.Services.OriginalAudio
import AudioServer.Services.Overlaps
import AudioServer.Services.Ownership
import AudioServer.Services.QuoteLinks
import AudioServer.Services.RecordedAttempts
import AudioServer.Services.Recordings
import AudioServer.Services.Renumbering
import AudioServer.Services.RowRules
import AudioServer.Services.SavedOnce
import AudioServer.Services.Storage
import AudioServer.Services.StorageFaults
import AudioServer.Services.StorageKeys
import AudioServer.Services.StorageTree
import AudioServer.Services.SwitchUpdates
import AudioServer.Services.UploadFaults
import AudioServer.Services.UploadIdempotence
import AudioServer.Services.Uploads
import AudioServer.Services.WriteOnce
import AudioServer.Web.AnalysisEditor
import AudioServer.Web.DayHeading
import AudioServer.Web.DayPage
import AudioServer.Web.DetailPage
import AudioServer.Web.Neighbours
import AudioServer.Web.PendingAnalysis
import AudioServer.Web.QueuePage
import AudioServer.Web.RecordingsPage
import AudioServer.Web.ReviewPaging
import AudioServer.Web.Stepping
import AudioServer.WebAuth.Attempts
import AudioServer.WebAuth.Limiter
import AudioServer.WebAuth.Logins
import AudioServer.WebAuth.Readings
import AudioServer.WebAuth.RetryAfter
import AudioServer.WebAuth.Service
import AudioServer.WebAuth.Sessions
import AudioServer.WebAuth.SetupRace
import AudioServer.Worker.AnalysisState
import AudioServer.Worker.CarryOver
import AudioServer.Worker.ClaimedAttempts
import AudioServer.Worker.CommittedResults
import AudioServer.Worker.CurrentSummaries
import AudioServer.Worker.DaySummaries
import AudioServer.Worker.DocumentInvariant
import AudioServer.Worker.Grounding
import AudioServer.Worker.HandWritten
import AudioServer.Worker.Invariant
import AudioServer.Worker.JobProcessor
import AudioServer.Worker.KeptAnalysis
import AudioServer.Worker.OneOutcome
import AudioServer.Worker.Persisters
import AudioServer.Worker.PipelineProtocol
import AudioServer.Worker.ProcessingRuns
import AudioServer.Worker.Reattachment
import AudioServer.Worker.Regrouping
import AudioServer.Worker.Resubmission
import AudioServer.Worker.Revisions
import AudioServer.Worker.RunOnce
import AudioServer.Worker.SentenceSpans
import AudioServer.Worker.ServedOrder
import AudioServer.Worker.ShownTranslations
import AudioServer.Worker.StoredAnalyses
import AudioServer.Worker.TimelineOnce
import AudioServer.Worker.TimelineOrder
import AudioServer.Worker.TimelineReplay
import AudioServer.Worker.TranslationRows
import AudioServer.Worker.UnchangedSave
