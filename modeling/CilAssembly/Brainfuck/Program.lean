import CilAssembly.Source.Span

/-!
Brainfuck programs as trees of folded commands: a run of cell or pointer steps is one command that
carries the net effect, and the loop that only counts its cell down is one command that clears it.
-/
namespace CilAssembly.Brainfuck

/-- A command other than a loop. Amounts and offsets wrap at 32 bits. -/
inductive Action
  | add (amount : Int32)
  | shift (offset : Int32)
  | output
  | input
  | clear
  deriving DecidableEq, Repr, Inhabited

namespace Action

def describe : Action → String
  | .add amount => "add " ++ toString amount.toInt
  | .shift offset => "shift " ++ toString offset.toInt
  | .output => "output"
  | .input => "input"
  | .clear => "clear"

def dump : Action → String
  | .add amount => Dump.apply "Add" [toString amount.toInt]
  | .shift offset => Dump.apply "Shift" [toString offset.toInt]
  | .output => "Output"
  | .input => "Input"
  | .clear => "Clear"

end Action

/-- A sequence of commands, each with its span. A loop runs its body while the current cell is not
zero. -/
inductive Program
  | done
  | act (span : Span) (action : Action) (rest : Program)
  | loop (span : Span) (body : Program) (rest : Program)
  deriving DecidableEq, Repr, Inhabited

namespace Program

/-- The number of commands of the sequence itself plus `count`; the commands of loop bodies do not
count. -/
def lengthFrom (count : Nat) : Program → Nat
  | .done => count
  | .act _ _ rest => rest.lengthFrom (count + 1)
  | .loop _ _ rest => rest.lengthFrom (count + 1)

def length (p : Program) : Nat :=
  p.lengthFrom 0

def isDone : Program → Bool
  | .done => true
  | _ => false

/-- The commands of a sequence in reverse order, in front of another sequence. -/
def reverseOnto : Program → Program → Program
  | .done, tail => tail
  | .act span action rest, tail => rest.reverseOnto (.act span action tail)
  | .loop span body rest, tail => rest.reverseOnto (.loop span body tail)

def reverse (p : Program) : Program :=
  p.reverseOnto .done

/-- The sequence in reverse order, its own spans forgotten; loop bodies keep theirs. -/
def reverseUnplacedOnto : Program → Program → Program
  | .done, tail => tail
  | .act _ action rest, tail => rest.reverseUnplacedOnto (.act .nowhere action tail)
  | .loop _ body rest, tail => rest.reverseUnplacedOnto (.loop .nowhere body tail)

/-- The programs agree up to the spans of their outermost commands. -/
def sameCommands (p q : Program) : Bool :=
  p.reverseUnplacedOnto .done == q.reverseUnplacedOnto .done

/-- The description of a loop by its body. -/
def describeLoop (body : Program) : String :=
  "loop (" ++ toString body.length ++ " commands)"

/-- The descriptions of all commands in reverse order, in front of others. A loop comes before the
commands of its body. -/
def statementsOnto : Program → List (Spanned String) → List (Spanned String)
  | .done, later => later
  | .act span action rest, later => rest.statementsOnto (⟨span, action.describe⟩ :: later)
  | .loop span body rest, later =>
    rest.statementsOnto (body.statementsOnto (⟨span, describeLoop body⟩ :: later))

/-- The descriptions of all commands, in the order in which they stand in the text. -/
def statements (p : Program) : List (Spanned String) :=
  (p.statementsOnto []).reverse

/-- The dumps of the commands in reverse order, in front of others. -/
def dumpOnto : Program → List String → List String
  | .done, earlier => earlier
  | .act span action rest, earlier =>
    rest.dumpOnto (Spanned.dump Action.dump ⟨span, action⟩ :: earlier)
  | .loop span body rest, earlier =>
    let item := Dump.apply "Loop" [Dump.list (body.dumpOnto []).reverse]
    rest.dumpOnto (Spanned.dump id ⟨span, item⟩ :: earlier)

def dump (p : Program) : String :=
  Dump.list (p.dumpOnto []).reverse

end Program

end CilAssembly.Brainfuck
