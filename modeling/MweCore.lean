import MweCore.Lib.Search
import MweCore.Lib.Str
import MweCore.Lib.Sql
import MweCore.Types
import MweCore.Acl
import MweCore.Parser.Parse
import MweCore.Parser.Tokens
import MweCore.Parser.Layout
import MweCore.Parser.Edit
import MweCore.Parser.Respell
import MweCore.Wiki.Yaml
import MweCore.Wiki.Markdown
import MweCore.Render.Links
import MweCore.Lib.Enclosed
import MweCore.Render.Withheld
import MweCore.Render.Reveal
import MweCore.Render.Page
import MweCore.Render.NonInterference
import MweCore.Capture.Body
import MweCore.Capture.Marker
import MweCore.Capture.Supersede
import MweCore.Export
import MweCore.Enrollment
import MweCore.Lib.Rfc3339
import MweCore.Lib.Run
import MweCore.Lib.Table
import MweCore.Lib.Effect
import MweCore.Lib.Disk
import MweCore.Wiki.Meta
import MweCore.Wiki.Tree
import MweCore.WikiAdmin.Leases
import MweCore.WikiAdmin.Push
import MweCore.WikiAdmin.PushGates
import MweCore.WikiAdmin.PushEffects
import MweCore.WikiAdmin.PushLaws
import MweCore.WikiAdmin.PushMetas
import MweCore.WikiAdmin.Upserts
import MweCore.FactIndex.Validity
import MweCore.WikiAdmin.Revert
import MweCore.FactIndex.Access
import MweCore.Capture.Buffer
import MweCore.Dream.Promote
import MweCore.Dream.Requeue
import MweCore.Dream.Holding
import MweCore.Reindex.Watcher
import MweCore.FactIndex.Fences
import MweCore.Ingest.Weld
import MweCore.Ingest.Replay
import MweCore.Capture.Fold
import MweCore.Planner.Names
import MweCore.Planner.Plan
import MweCore.Planner.Rehome
import MweCore.Planner.Build
import MweCore.Planner.Landing
import MweCore.Planner.Placement
import MweCore.Planner.Named
import MweCore.Planner.WikiPlan
import MweCore.Planner.OneFact
import MweCore.Planner.Carried
import MweCore.Compiler.Sheet
import MweCore.Compiler.Markers
import MweCore.Planner.Contents
import MweCore.Planner.Reuse
import MweCore.Dream.Waiting
import MweCore.Compiler.Restating
import MweCore.Locale
import MweCore.Compiler.Leaf
import MweCore.Lib.Json
import MweCore.Lib.Drain
import MweCore.Events.Recipient
import MweCore.Events.Queue
import MweCore.Events.Poll
import MweCore.Events.Acks
import MweCore.Reminders.Sweep
import MweCore.Reminders.Readers
import MweCore.Reminders.Rounds
import MweCore.Gdpr.Forget
import MweCore.Gdpr.Fate
import MweCore.Gdpr.Erased
import MweCore.Gdpr.Others
import MweCore.Votes.Electorate
import MweCore.Enrollment.Names
import MweCore.Proposals.SlotConflict
import MweCore.Proposals.Held
import MweCore.OAuth.Tokens
import MweCore.OAuth.Interleaved
import MweCore.Acl.Readership
import MweCore.Rem.Passes
import MweCore.Rem.Night
import MweCore.Rem.Merge
import MweCore.Rem.Card
import MweCore.Media.Store
import MweCore.Media.Openable
import MweCore.Briefing.Inbox
import MweCore.Briefing.Document
import MweCore.Briefing.Agrees
import MweCore.Lib.Moment
import MweCore.FactIndex.Bounds
import MweCore.Lib.Solid
import MweCore.Document.Segments
import MweCore.Document.Kept
import MweCore.Lib.Greedy
import MweCore.Document.Merge
import MweCore.Reindex.Sections
import MweCore.Planner.Floor
import MweCore.Lib.Keyed
import MweCore.Capture.Lists
import MweCore.Ingest.Marked
import MweCore.Ingest.Refused
import MweCore.Dream.Twins
import MweCore.Lib.Tally
import MweCore.Gdpr.Preview
import MweCore.Lib.Numeral
import MweCore.Compiler.Figures
import MweCore.Compiler.Values
import MweCore.Lib.Brackets
import MweCore.Promote.Retarget
import MweCore.Parser.Cutting
import MweCore.Parser.Appending
import MweCore.Parser.Found
import MweCore.Promote.Regions
import MweCore.Compiler.File
import MweCore.Compiler.Lists
import MweCore.FactIndex.Undo
import MweCore.Enrollment.Validate
import MweCore.Capture.OnPage
import MweCore.Recall.Block
import MweCore.Recall.Scoring
import MweCore.Recall.Fusion
import MweCore.Ingest.Filing
import MweCore.Render.Monotone
import MweCore.Compiler.Rails
import MweCore.Recall.LinkKey
import MweCore.Reindex.Strip
import MweCore.Usage
import MweCore.Lib.Windows
import MweCore.RateLimit
import MweCore.Lib.Occurrences
import MweCore.Reviewer
import MweCore.Briefing.Cap
import MweCore.Wiki.Rewrite
import MweCore.Wiki.Testata
import MweCore.Rem.Split
import MweCore.Rem.MarkedPage
import MweCore.Rem.Aside
import MweCore.Recall.Navigator
import MweCore.Recall.Dials
import MweCore.TopicRank
import MweCore.Candidates
import MweCore.WikiDelete
import MweCore.Gateway
import MweCore.Signposts
import MweCore.SignIn.Door
