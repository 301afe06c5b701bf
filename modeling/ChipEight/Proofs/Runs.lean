import ChipEight.Machine.Execution

/-!
# Runs

What can be done to a machine from outside, as data, so that theorems can speak
of every order in which it happens. An `Event` is what happens while a program
runs: cycles, timer ticks, keys, a front end taking the repaint mark. An
`Operation` is an event or one of the ways to drive and reload a machine. Nothing
here writes a register from outside.

`Kept` packages the induction: a property that holds at power-on and that no
operation breaks holds of every reachable machine. `HistoryKept` does the same for
what ties the machine to the instructions it has executed since the last reset.
-/

namespace ChipEight

/-- What happens to a machine while a program runs. -/
inductive Event where
  | cycle
  | tick
  | key (key : UInt8) (down : Bool)
  /-- A front end asks whether a repaint is due, and takes the mark. -/
  | repaint
deriving DecidableEq

/-- What can be done to a machine. -/
inductive Operation where
  | event (e : Event)
  | run (n : Nat)
  | load (program : List UInt8)
  | reset
deriving DecidableEq

/-- How many cycles an operation asks for. -/
def Operation.cycles : Operation → Nat
  | event .cycle => 1
  | run n => n
  | _ => 0

/-- What comes back. -/
inductive Answer where
  | cycled (r : Except Fault Instruction)
  | ticked
  | keyed (r : Except NoSuchKey Unit)
  | repaint (due : Bool)
  | ran (r : Except Fault Nat)
  | loaded (r : Except MemoryError Unit)
  | reset

/-- Take inputs one after another, and collect the answers. -/
def answersTo {σ ι ω : Type} (step : σ → ι → ω × σ) : σ → List ι → List ω × σ
  | s, [] => ([], s)
  | s, i :: is =>
    let r := step s i
    let rest := answersTo step r.2 is
    (r.1 :: rest.1, rest.2)

/-- What stands in a list with one more item: an item of the list, or the last. -/
theorem getElem?_concat_cases {α : Type} {l : List α} {a b : α} {k : Nat}
    (h : (l ++ [a])[k]? = some b) : k < l.length ∧ l[k]? = some b ∨ k = l.length ∧ b = a := by
  rcases Nat.lt_trichotomy k l.length with hlt | rfl | hgt
  · rw [List.getElem?_append_left hlt] at h
    exact .inl ⟨hlt, h⟩
  · rw [List.getElem?_concat_length] at h
    exact .inr ⟨rfl, (Option.some.inj h).symm⟩
  · have hlength : (l ++ [a]).length ≤ k := by
      rw [List.length_append]
      exact hgt
    rw [List.getElem?_eq_none hlength] at h
    cases h

/-- What no step breaks, no run breaks. -/
theorem answersTo_keeps {σ ι ω : Type} {step : σ → ι → ω × σ} {P : σ → Prop}
    (hstep : ∀ s i, P s → P (step s i).2) {s : σ} (hs : P s) (inputs : List ι) :
    P (answersTo step s inputs).2 := by
  induction inputs generalizing s with
  | nil => exact hs
  | cons i is ih => exact ih (hstep s i hs)

/-- **Simulation, from one step to all.** If `f` carries every step of one system to a step of the
other with the same answer, wherever `P` holds, and the steps keep `P`, then `f` carries every
run. -/
theorem answersTo_simulates {σ τ ι ω : Type} {step : σ → ι → ω × σ} {step' : τ → ι → ω × τ}
    {f : σ → τ} {P : σ → Prop}
    (hstep : ∀ s i, P s → step' (f s) i = ((step s i).1, f (step s i).2) ∧ P (step s i).2)
    {s : σ} (hs : P s) (inputs : List ι) :
    answersTo step' (f s) inputs =
      ((answersTo step s inputs).1, f (answersTo step s inputs).2) := by
  induction inputs generalizing s with
  | nil => rfl
  | cons i is ih =>
      obtain ⟨he, hP⟩ := hstep s i hs
      simp only [answersTo, he, ih hP]

/-- Each answer is that of a step from where the inputs before it led. -/
theorem getElem?_answersTo {σ ι ω : Type} (step : σ → ι → ω × σ) (s : σ) (inputs : List ι)
    (k : Nat) :
    (answersTo step s inputs).1[k]? =
      inputs[k]?.map fun i => (step (answersTo step s (inputs.take k)).2 i).1 := by
  induction inputs generalizing s k with
  | nil => rfl
  | cons i is ih =>
      cases k with
      | zero => rfl
      | succ k => exact ih (step s i).2 k

namespace Machine

/-- An event and its answer. -/
def handle (m : Machine) : Event → Answer × Machine
  | .cycle => (.cycled m.cycle.1, m.cycle.2)
  | .tick => (.ticked, m.tick)
  | .key key down =>
    match m.setKey key down with
    | .ok m' => (.keyed (.ok ()), m')
    | .error e => (.keyed (.error e), m)
  | .repaint => (.repaint m.screen.dirty, m.settle)

/-- An operation and its answer. -/
def perform (m : Machine) : Operation → Answer × Machine
  | .event e => m.handle e
  | .run n => (.ran (m.runCycles n).1, (m.runCycles n).2)
  | .load program => (.loaded (m.load program).1, (m.load program).2)
  | .reset => (.reset, m.reset)

/-- The machines that operations lead to from power-on with a seed. -/
inductive Reachable (seed : UInt64) : Machine → Prop where
  | powerOn : Reachable seed (ofSeed seed)
  | perform {m : Machine} (op : Operation) : Reachable seed m → Reachable seed (m.perform op).2

/-! ## Cycles in a row -/

theorem run_succ (m : Machine) (n : Nat) :
    m.run (n + 1) =
      match m.cycle with
      | (.ok _, m') => m'.run n
      | (.error e, m') => (some e, m') := by
  rw [run, runWith]
  rcases m.cycle with ⟨_ | _, m'⟩ <;> rfl

/-- An observer changes nothing. -/
theorem runWith_snd {σ : Type} (observe : UInt16 → Instruction → σ → σ) (n : Nat) (s : σ)
    (m : Machine) : (runWith observe n s m).2 = m.run n := by
  induction n generalizing s m with
  | zero => rfl
  | succ n ih =>
      rw [runWith, run_succ]
      rcases m.cycle with ⟨_ | i, m'⟩
      · rfl
      · exact ih (observe m.instructionAddress i s) m'

theorem runCycles_snd (m : Machine) (n : Nat) : (m.runCycles n).2 = (m.run n).2 := by
  unfold runCycles
  split <;> simp [*]

/-- What no cycle breaks, no run breaks. -/
theorem run_keeps {P : Machine → Prop} (hcycle : ∀ {m : Machine}, P m → P m.cycle.2) (n : Nat)
    {m : Machine} (h : P m) : P (m.run n).2 := by
  induction n generalizing m with
  | zero => exact h
  | succ n ih =>
      have hc := hcycle h
      rw [run_succ]
      -- a fault ends the run with the machine of this cycle
      split <;> rename_i hm <;> rw [hm] at hc
      · exact ih hc
      · exact hc

/-! ## Properties that operations keep -/

/-- An event of a key changes the keypad at most. -/
theorem exists_handle_key (m : Machine) (key : UInt8) (down : Bool) :
    ∃ keypad, (m.handle (.key key down)).2 = { m with keypad } := by
  simp only [handle, setKey]
  cases m.keypad.set key down with
  | ok keypad => exact ⟨keypad, rfl⟩
  | error e => exact ⟨m.keypad, rfl⟩

/-- Loading changes the memory at most. -/
theorem exists_perform_load (m : Machine) (program : List UInt8) :
    ∃ memory, (m.perform (.load program)).2 = { m with memory } :=
  ⟨(m.memory.load program).2, rfl⟩

/-- No operation breaks `P`. -/
structure Kept (P : Machine → Prop) : Prop where
  cycle : ∀ {m : Machine}, P m → P m.cycle.2
  tick : ∀ {m : Machine}, P m → P m.tick
  keypad : ∀ {m : Machine} (keypad : Keypad), P m → P { m with keypad }
  settle : ∀ {m : Machine}, P m → P m.settle
  memory : ∀ {m : Machine} (memory : Memory), P m → P { m with memory }
  reset : ∀ {m : Machine}, P m → P m.reset

namespace Kept

variable {P : Machine → Prop}

theorem run (hP : Kept P) (n : Nat) {m : Machine} (h : P m) : P (m.run n).2 :=
  run_keeps hP.cycle n h

theorem handle (hP : Kept P) (e : Event) {m : Machine} (h : P m) : P (m.handle e).2 := by
  cases e with
  | cycle => exact hP.cycle h
  | tick => exact hP.tick h
  | key key down =>
      obtain ⟨keypad, hm⟩ := m.exists_handle_key key down
      rw [hm]
      exact hP.keypad keypad h
  | repaint => exact hP.settle h

theorem perform (hP : Kept P) (op : Operation) {m : Machine} (h : P m) :
    P (m.perform op).2 := by
  cases op with
  | event e => exact hP.handle e h
  | run n =>
      rw [Machine.perform, runCycles_snd]
      exact hP.run n h
  | load program =>
      obtain ⟨memory, hm⟩ := m.exists_perform_load program
      rw [hm]
      exact hP.memory memory h
  | reset => exact hP.reset h

theorem reachable (hP : Kept P) {seed : UInt64} (h0 : P (ofSeed seed)) {m : Machine}
    (h : Reachable seed m) : P m := by
  induction h with
  | powerOn => exact h0
  | perform op _ ih => exact hP.perform op ih

end Kept

/-! ## What was executed -/

/-- The instructions executed since the last reset, after an operation. `is` are those before. -/
def recorded (m : Machine) (is : List Instruction) : Operation → List Instruction
  | .event .cycle => is ++ m.cycle.1.toOption.toList
  | .run n => (runWith (fun _ i is => is ++ [i]) n is m).1
  | .reset => []
  | _ => is

/-- The instructions executed since the last reset, after operations. -/
def history (m : Machine) (is : List Instruction) : List Operation → List Instruction
  | [] => is
  | op :: ops => (m.perform op).2.history (m.recorded is op) ops

/-- No operation breaks a relation between the instructions executed and the machine, unless it is
the taking of the repaint mark. -/
structure HistoryKept (P : List Instruction → Machine → Prop) : Prop where
  executed : ∀ {is : List Instruction} {m m' : Machine} {i : Instruction},
    P is m → m.cycle = (.ok i, m') → P (is ++ [i]) m'
  faulted : ∀ {is : List Instruction} {m m' : Machine} {e : Fault},
    P is m → m.cycle = (.error e, m') → P is m'
  tick : ∀ {is : List Instruction} {m : Machine}, P is m → P is m.tick
  keypad : ∀ {is : List Instruction} {m : Machine} (keypad : Keypad),
    P is m → P is { m with keypad }
  memory : ∀ {is : List Instruction} {m : Machine} (memory : Memory),
    P is m → P is { m with memory }
  reset : ∀ {is : List Instruction} {m : Machine}, P is m → P [] m.reset

namespace HistoryKept

variable {P : List Instruction → Machine → Prop}

theorem run (hP : HistoryKept P) (n : Nat) {is : List Instruction} {m : Machine} (h : P is m) :
    P (runWith (fun _ i is => is ++ [i]) n is m).1 (m.run n).2 := by
  induction n generalizing m is with
  | zero => exact h
  | succ n ih =>
      rw [runWith, run_succ]
      rcases hm : m.cycle with ⟨e | i, m'⟩
      · exact hP.faulted h hm
      · exact ih (hP.executed h hm)

theorem perform (hP : HistoryKept P) {op : Operation} {is : List Instruction} {m : Machine}
    (hsettle : op = .event .repaint → P is m.settle) (h : P is m) :
    P (m.recorded is op) (m.perform op).2 := by
  cases op with
  | event e =>
      cases e with
      | cycle =>
          simp only [recorded, Machine.perform, Machine.handle]
          rcases hm : m.cycle with ⟨e | i, m'⟩
          · rw [Except.toOption, Option.toList_none, List.append_nil]
            exact hP.faulted h hm
          · exact hP.executed h hm
      | tick => exact hP.tick h
      | key key down =>
          obtain ⟨keypad, hm⟩ := m.exists_handle_key key down
          simp only [recorded, Machine.perform, hm]
          exact hP.keypad keypad h
      | repaint => exact hsettle rfl
  | run n =>
      rw [Machine.perform, runCycles_snd]
      exact hP.run n h
  | load program =>
      obtain ⟨memory, hm⟩ := m.exists_perform_load program
      simp only [recorded, hm]
      exact hP.memory memory h
  | reset => exact hP.reset h

/-- **What each operation keeps, any operations keep.** -/
theorem perform_all (hP : HistoryKept P) {ops : List Operation}
    (hsettle : .event .repaint ∈ ops → ∀ {is : List Instruction} {m : Machine},
      P is m → P is m.settle)
    {is : List Instruction} {m : Machine} (h : P is m) :
    P (m.history is ops) (answersTo Machine.perform m ops).2 := by
  induction ops generalizing m is with
  | nil => exact h
  | cons op ops ih =>
      have hop : op = .event .repaint → P is m.settle := fun ho =>
        hsettle (ho ▸ List.mem_cons_self) h
      exact ih (fun hmem => hsettle (List.mem_cons_of_mem op hmem)) (hP.perform hop h)

end HistoryKept

end Machine

end ChipEight
