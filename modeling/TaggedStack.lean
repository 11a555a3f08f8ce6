import TaggedStack.Cli.Session
import TaggedStack.Enumerate
import TaggedStack.Main
import TaggedStack.Proofs.Budget
import TaggedStack.Proofs.Campaign
import TaggedStack.Proofs.Compilation
import TaggedStack.Proofs.CrashFreedom
import TaggedStack.Proofs.Encoding
import TaggedStack.Proofs.ExitStatus
import TaggedStack.Proofs.Frame
import TaggedStack.Proofs.HexGrammar
import TaggedStack.Proofs.HighBit
import TaggedStack.Proofs.Relocation
import TaggedStack.Proofs.Rollback
import TaggedStack.Proofs.SinkChoice
import TaggedStack.Proofs.SuiteStops
import TaggedStack.Proofs.WireFormat
import TaggedStack.Proofs.Passages
import TaggedStack.Proofs.Countdown
import TaggedStack.Proofs.Greeting
import TaggedStack.Proofs.StackCalls
import TaggedStack.Proofs.SuiteEnding
import TaggedStack.Proofs.StackHeights
import TaggedStack.Proofs.Copying
import TaggedStack.Proofs.HexRendering
import TaggedStack.Proofs.StraightLine
import TaggedStack.Proofs.Readability
import TaggedStack.Proofs.SuiteContents
import TaggedStack.Proofs.GeneratedCases
import TaggedStack.Proofs.Arithmetic
import TaggedStack.Proofs.Consistency
import TaggedStack.Proofs.BoundedStack
import TaggedStack.Proofs.Accesses
import TaggedStack.Proofs.RandomExpressions
