import Runbook.Main
import Runbook.Viewer
import Runbook.Proofs.CommandLine.Assigning
import Runbook.Proofs.Files.Collecting
import Runbook.Proofs.Project.Naming
import Runbook.Proofs.Request.Base
import Runbook.Proofs.Request.Echo
import Runbook.Proofs.Request.JsonForm
import Runbook.Proofs.Request.Lines
import Runbook.Proofs.Request.Methods
import Runbook.Proofs.Request.Query
import Runbook.Proofs.Request.ReadBack
import Runbook.Proofs.Response.MediaType
import Runbook.Proofs.Scope.Flattening
import Runbook.Proofs.Scope.Paths
import Runbook.Proofs.Session.Directories
import Runbook.Proofs.Session.Failure
import Runbook.Proofs.Session.Flows
import Runbook.Proofs.Session.Layers
import Runbook.Proofs.Session.Lockstep
import Runbook.Proofs.Session.Received
import Runbook.Proofs.Session.Reopening
import Runbook.Proofs.Session.Unanswered
import Runbook.Proofs.Template.References
import Runbook.Proofs.Text.Letters
import Runbook.Proofs.Viewer.Showing
import Runbook.Proofs.Viewer.Statuses
import Runbook.Request.Reading
