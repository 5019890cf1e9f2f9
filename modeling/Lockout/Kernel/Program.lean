import Lockout.Kernel.Basic
/-!
# Scripted tasks

Task bodies written as lists of instructions. A body keeps a counter, starts it at zero whenever the task
starts over, and writes lines.
-/

namespace Lockout

inductive Instruction
  /-- Write the task's own id and the counter, then count. -/
  | log
  | yield
  | ready (id : SlotId)
  | reset (id : SlotId)
  | isReady (id : SlotId)
  | create (id : SlotId) (stackWords : Nat) (program : List Instruction)
  /-- Go back to the start; the counter stays. -/
  | loop
  | halt

structure ScriptedBody where
  program : List Instruction
  rest : List Instruction
  counter : Nat := 0

namespace ScriptedBody

structure Output where
  lines : Array String := #[]
  messages : Array Message := #[]

def start (program : List Instruction) : ScriptedBody := ⟨program, program, 0⟩

def write (line : String) : StateM Output Unit := modify fun o => { o with lines := o.lines.push line }

/-- Writes `line`, then goes on from `b`. -/
def writing (line : String) (b : ScriptedBody) : StateM Output ScriptedBody := do
  write line
  return b

def resultName : Except CreationError Unit → String
  | .ok () => "ok"
  | .error e => e.name

def step (self : SlotId) (b : ScriptedBody) : StateM Output (Act (StateM Output) ScriptedBody) :=
  let own := toString self.val ++ ":"
  match b.rest with
  | [] => return .finish
  | i :: rest =>
    let b := { b with rest := rest }
    match i with
    | .log => do
      write (own ++ toString b.counter)
      return .go { b with counter := b.counter + 1 }
    | .yield => return .yield b
    | .ready id => return .wake id b
    | .reset id => return .restart id b
    | .isReady id =>
      return .askReady id fun ready => writing (own ++ toString id.val ++ "=" ++ Message.truth ready) b
    | .create id stackWords program =>
      return .create id stackWords (start program) fun result => writing (own ++ resultName result) b
    | .loop => return .go { b with rest := b.program }
    | .halt => return .finish

def host : Host (StateM Output) ScriptedBody where
  step := step
  log message := modify fun o => { o with messages := o.messages.push message }

/-- Steps after which a kernel of scripted bodies is taken to run for ever. -/
def stepLimit : Nat := 100000000

def settle (k : Kernel ScriptedBody) : StateM Output (Kernel ScriptedBody) := do
  let (k, _) ← k.run host stepLimit
  return k

end ScriptedBody

end Lockout
