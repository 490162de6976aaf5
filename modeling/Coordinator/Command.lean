import Coordinator.Config.Logging
import Coordinator.Deployment

/-! # The command line

The command sets a configuration up and does one thing with it: it recovers prepared branches,
asks a backend about itself, or writes a query of the past.  It prints as it goes along, so that
what it has printed by the time it fails stays printed.  The journal is written to the standard
output too, so that a text the command prints stands there behind the records made before it.
`Command.run` gives the whole outcome of an invocation, from which follow the exit code and both
outputs. -/
namespace Coordinator.Command

/-- How an invocation ends. -/
inductive Ending
  | done
  /-- The arguments make no command. -/
  | misused
  /-- A sweep was asked for, and neither arguments nor configuration say of what. -/
  | noStem
  | failed (f : Fault)
deriving DecidableEq, Repr

def usage : Bytes :=
  ascii "Usage:\n" ++
  ascii "  txcoordctl --config <file> recover list <participant>\n" ++
  ascii "  txcoordctl --config <file> recover commit <participant> <xid>\n" ++
  ascii "  txcoordctl --config <file> recover rollback <participant> <xid>\n" ++
  ascii "  txcoordctl --config <file> recover cleanup <participant> [prefix]\n" ++
  ascii "  txcoordctl --config <file> cluster-info <manager>\n" ++
  ascii "  txcoordctl --config <file> as-of <manager> <interval> <query>\n"

namespace Ending

/-- The exit code: 0 for success, 1 for a mistake of the caller, 3 for something that does not
exist, 2 for any other failure. -/
def code : Ending → UInt8
  | done => 0
  | misused => 1
  | noStem => 1
  | failed f => match f.kind with
    | .notFound => 3
    | .invalidArgument => 1
    | _ => 2

/-- The words before the text of a fault. -/
def heading : Fault.Kind → Bytes
  | .notFound => ascii "not found: "
  | .invalidArgument => ascii "invalid argument: "
  | _ => ascii "error: "

/-- What goes to the error output. -/
def errors : Ending → Bytes
  | done => []
  | misused => usage
  | noStem => ascii "cleanup needs a prefix (argument or recovery.stale_prefix)\n"
  | failed f => heading f.kind ++ f.message ++ [10]

end Ending

/-! ## The standard output -/

/-- A text that the command printed. -/
structure Print where
  text : Bytes
  /-- How many records the journal had by then. -/
  behind : Nat
deriving DecidableEq, Repr

/-- What the command printed, in order. -/
abbrev Transcript := List Print

/-- The texts of a transcript, alone. -/
def Transcript.texts (t : Transcript) : Bytes := t.flatMap Print.text

/-- The texts of a transcript in their places among the lines of the journal, the first `n` of which
are written already. -/
def Transcript.among (lines : List Bytes) (n : Nat) : Transcript → Bytes
  | [] => (lines.drop n).flatten
  | p :: rest => ((lines.take p.behind).drop n).flatten ++ p.text ++ among lines p.behind rest

/-- What an invocation comes to: how it ended, and what it had printed and recorded by then. -/
structure Outcome where
  ending : Ending
  printed : Transcript := []
  journal : List Journal.Record := []
  /-- How the configuration wants the journal to be written. -/
  logging : Config.LoggingSettings := {}
deriving DecidableEq, Repr

namespace Outcome

/-- The exit code. -/
def code (o : Outcome) : UInt8 := o.ending.code

/-- What goes to the error output. -/
def errors (o : Outcome) : Bytes := o.ending.errors

/-- What the command itself wrote to the standard output, without the journal. -/
def output (o : Outcome) : Bytes := o.printed.texts

/-- What a library writes of each record, given the level and the pattern of the environment. -/
def lines (o : Outcome) (library : Config.Logging.Library) (level pattern : Option Bytes) :
    List Bytes :=
  o.journal.zipIdx.map fun (r, n) => library (Config.Logging.resolve o.logging level pattern) n r

/-- What went to the standard output, the journal included. -/
def standardOutput (o : Outcome) (library : Config.Logging.Library)
    (level pattern : Option Bytes) : Bytes :=
  o.printed.among (o.lines library level pattern) 0

end Outcome

/-! ## Printing -/

/-- Where the command prints: a text is added, given how many records the journal has. -/
class Screen (ω : Type) where
  print : Nat → Bytes → ω → ω

/-- A screen for the command alone. -/
instance : Screen Bytes := ⟨fun _ text printed => printed ++ text⟩

/-- A screen that it shares with the journal. -/
instance : Screen Transcript := ⟨fun behind text printed => printed ++ [⟨text, behind⟩]⟩

/-- A command at work: the screen so far, and the plant it works on. -/
abbrev Shell (ω : Type) := Action (ω × Plant)

section Printing
variable {ω α : Type}

/-- Writes to the standard output. -/
def print [Screen ω] (text : Bytes) : Shell ω Unit :=
  .update fun (printed, p) => (Screen.print p.journal.length text printed, p)

/-- Work on the plant, which prints nothing. -/
def onPlant (x : Action Plant α) : Shell ω α := Cell.second.run x

theorem run_print [Screen ω] (text : Bytes) (printed : ω) (p : Plant) :
    (print text).run (printed, p) =
      (.ok (), Screen.print p.journal.length text printed, p) := rfl

theorem run_onPlant (x : Action Plant α) (printed : ω) (p : Plant) :
    (onPlant x).run (printed, p) = ((x.run p).1, printed, (x.run p).2) := rfl

end Printing

/-! ## Commands -/

section Commands
variable {ω : Type} [Screen ω]

/-- A prepared branch on a line of its own: the numbers and the xid, with tabs between them. -/
def branchLine (b : Xa.Recovered) : Bytes :=
  Bytes.join [9] [Decimal.ofInt b.formatId.toInt, Decimal.ofInt b.globalLength.toInt,
    Decimal.ofInt b.qualifierLength.toInt, Journal.printable b.xid] ++ [10]

/-- What is printed when a branch is settled by its xid. -/
def settledLine (verb : String) (xid : Bytes) : Bytes :=
  ascii verb ++ 32 :: Journal.printable xid ++ ascii ": ok\n"

def clusterText (c : Retry.ClusterInfo) : Bytes :=
  ascii "version: " ++ c.version ++ ascii "\nserver_version: " ++ c.serverVersion ++
    ascii "\nregions:" ++ c.regions.flatMap (32 :: ·) ++ [10]

/-- A command of the recovery family, with the arguments after the participant.  The participant
is looked up before the verb is looked at.  The line about a sweep is begun before the sweep. -/
def recover (d : Deployment) (verb name : Bytes) (rest : List Bytes) : Shell ω Ending := do
  let p ← .ofExcept (d.participant name)
  let g := Plant.alone.gateway p.pool
  if verb = ascii "list" then
    .forEach (fun b => print (branchLine b)) (← onPlant (p.component.recover g))
    return .done
  else if verb = ascii "commit" then
    let [xid] := rest | return .misused
    onPlant (p.component.commitByXid g xid)
    print (settledLine "commit" xid)
    return .done
  else if verb = ascii "rollback" then
    let [xid] := rest | return .misused
    onPlant (p.component.rollbackByXid g xid)
    print (settledLine "rollback" xid)
    return .done
  else if verb = ascii "cleanup" then
    let stem := rest.head?.getD d.staleStem
    if stem = [] then return .noStem
    print (ascii "rolled back ")
    let n ← onPlant (p.component.sweep g stem)
    print (Decimal.ofNat n ++ ascii " transaction(s)\n")
    return .done
  else return .misused

/-- The command that the arguments name, on what the configuration set up. -/
def dispatch (d : Deployment) (family : Bytes) (args : List Bytes) : Shell ω Ending := do
  if family = ascii "recover" then
    let verb :: name :: rest := args | return .misused
    recover d verb name rest
  else if family = ascii "cluster-info" then
    let [name] := args | return .misused
    let m ← .ofExcept (d.manager name)
    print (clusterText (← onPlant (m.component.clusterInfo (Plant.alone.gateway m.pool))))
    return .done
  else if family = ascii "as-of" then
    let [name, interval, query] := args | return .misused
    let m ← .ofExcept (d.manager name)
    print ((← .ofExcept (m.component.dialect.asOf query interval)) ++ [10])
    return .done
  else return .misused

/-- The arguments of a command: the file of its configuration, the family, and the rest. -/
structure Invocation where
  file : Bytes
  family : Bytes
  args : List Bytes
deriving DecidableEq, Repr

def Invocation.ofArgs? : List Bytes → Option Invocation
  | flag :: file :: family :: args =>
    if flag = ascii "--config" then some ⟨file, family, args⟩ else none
  | _ => none

/-- The record about the export of metrics, which this build does not have. -/
def metricsRecord : Journal.Record :=
  ⟨.debug, ascii "Metrics export", [.ofBool (ascii "enabled") false]⟩

/-- Starts the journal and sets the configuration up. -/
def setUp (c : Config) : Action Plant Deployment := do
  .update (Plant.log metricsRecord)
  Deployment.build c

/-- Sets the configuration up and obeys the command; `load` gives the configuration in a file. -/
def obey (load : Bytes → Except Fault Config) (i : Invocation) : Shell ω Ending := do
  let d ← onPlant (setUp (← .ofExcept (load i.file)))
  dispatch d i.family i.args

end Commands

/-- The outcome of an invocation; `sqlite` is the library behind SQLite databases. -/
def run (load : Bytes → Except Fault Config) (args : List Bytes) (sqlite : Client.Sqlite) :
    Outcome :=
  match Invocation.ofArgs? args with
  | none => { ending := .misused }
  | some i =>
    let (r, printed, p) := (obey load i).run (([] : Transcript), { sqlite })
    let logging := match load i.file with
      | .ok c => c.logging
      | .error _ => {}
    match r with
    | .ok ending => ⟨ending, printed, p.journal, logging⟩
    | .error f => ⟨.failed f, printed, p.journal, logging⟩

end Coordinator.Command
