import Retag.Main
import Retag.Proofs.Attribute.Grammar
import Retag.Proofs.Migration.ImportMove
import Retag.Proofs.Migration.Rerun
import Retag.Proofs.Origin.History
import Retag.Proofs.Tag.Extent
import Retag.Proofs.Migration.Step
import Retag.Proofs.Migration.Idle
import Retag.Proofs.Tag.Nesting
import Retag.Proofs.Tag.Restoration
import Retag.Proofs.Text.Position
import Retag.Proofs.Migration.Positions
import Retag.Proofs.Command.Schedule
import Retag.Proofs.Command.Runs
import Retag.Proofs.Tag.Location
import Retag.Proofs.Tag.Partners
import Retag.Proofs.Attribute.Views
import Retag.Proofs.Color.Writing
import Retag.Proofs.Color.Semantics
import Retag.Proofs.Color.Frame
import Retag.Proofs.Attribute.Steady
import Retag.Proofs.Color.Reread
import Retag.Proofs.Import.Grammar
import Retag.Proofs.Text.LineMatch
import Retag.Proofs.Import.Rewriting
import Retag.Proofs.Import.Ensuring
import Retag.Proofs.Text.Lowercase
import Retag.Proofs.Color.Precedence
import Retag.Proofs.Path
import Retag.Proofs.Walk
import Retag.Proofs.Table
import Retag.Proofs.Migration.Props
import Retag.Proofs.Migration.Previews
import Retag.Proofs.Splice.Between
import Retag.Proofs.Attribute.Separation
import Retag.Proofs.Splice.Insertion
import Retag.Proofs.Text.LineFeed
import Retag.Proofs.Migration.Insertion
