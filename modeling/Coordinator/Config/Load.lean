import Coordinator.Config.Block
import Coordinator.Config.Decode
import Coordinator.Config.Source

/-! # Configuration files

`Config.load` reads a configuration off the text of a file. -/
namespace Coordinator.Config

/-- The configuration in a file, given its text or why there is none. -/
def load (file : Except Bytes Bytes) : Except Fault Config := do
  let tree := do (Block.read (← file)).mapError Block.Problem.text
  let document ← ({ tree } : Source).document .file
  (ofDocument document).mapError fun m => Source.readFault m.text

end Coordinator.Config
