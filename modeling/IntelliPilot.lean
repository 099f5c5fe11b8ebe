import IntelliPilot.Auth.SessionRevocation
import IntelliPilot.Auth.EnrolmentSoundness
import IntelliPilot.Auth.BlockEffect
import IntelliPilot.Auth.SingleUse
import IntelliPilot.Auth.DevicePolling
import IntelliPilot.Auth.BackchannelLogout
import IntelliPilot.Auth.Runs
import IntelliPilot.Backlog.IssueForest
import IntelliPilot.Backlog.DeltaCompleteness
import IntelliPilot.Auth.LastSuperadmin
import IntelliPilot.Projects.ActivityIsolation
import IntelliPilot.Auth.Unlinking
import IntelliPilot.Docs.Rollback
import IntelliPilot.Docs.Insertion
import IntelliPilot.Ordering.Placement
import IntelliPilot.Imports.RoundTrip
import IntelliPilot.Issues.Hydration
import IntelliPilot.Issues.Creation
import IntelliPilot.Issues.ReleaseText
import IntelliPilot.Issues.ConcurrentPatches
import IntelliPilot.Epics.Completed
import IntelliPilot.TimeTracking.Corrections
import IntelliPilot.TimeTracking.Locks
import IntelliPilot.Wiki.Revisions
import IntelliPilot.Meetings.Subtitles
import IntelliPilot.Meetings.Edits
import IntelliPilot.Attachments.Blobs
import IntelliPilot.Attachments.Filenames
import IntelliPilot.Attachments.Ranges
import IntelliPilot.Attachments.SignedLinks
import IntelliPilot.Images.Agreement
import IntelliPilot.Registration.Limits
import IntelliPilot.Search.Upkeep
import IntelliPilot.Projects.ResourceWrites
import IntelliPilot.Projects.Administrators
import IntelliPilot.Milestones.Secrecy
import IntelliPilot.Taxonomy.Resolved
import IntelliPilot.Boards.Resolution
import IntelliPilot.Prefixes.Resolution
import IntelliPilot.Progress.Figures
import IntelliPilot.Filters.Feed
import IntelliPilot.Filters.Grouping
import IntelliPilot.Geolocation.WorkingDatabase
import IntelliPilot.Docs.Paths
import IntelliPilot.Search.PrefixQuery
import IntelliPilot.TimeTracking.Absences
import IntelliPilot.TimeTracking.Timesheets
import IntelliPilot.Registration.SshUrls
