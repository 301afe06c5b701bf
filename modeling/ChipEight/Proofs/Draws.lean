import ChipEight.Proofs.Restart

/-!
# Random draws follow the seed

A machine made with a seed draws on the stream of that seed, and `CXNN` is the only
instruction that does. So the place in the stream is the number of draws since the
last reset, and the draw after `j` others takes word `j`, whatever its mask, whatever
was executed between them, and whatever was done to the machine from outside.

The statement is about every draw of a run, also one in the middle of many cycles
that were asked for at once. So a run is recorded (`Machine.log`): the instructions
executed since the last reset, each with the machine that it left. `Followed` says
that the record follows the stream. One more cycle keeps it, by `random_of_drawn` and
`random_of_undrawn`, and a reset starts record and stream anew.
-/

namespace ChipEight

/-- Whether an instruction draws a random byte. -/
def Instruction.draws : Instruction → Bool
  | random _ _ => true
  | _ => false

namespace Machine

/-! ## What a cycle does to the stream -/

/-- The machine on another stream. -/
def withRandom (m : Machine) (random : KeyStream) : Machine :=
  { m with random }

/-- An instruction that does not draw neither reads the stream nor touches it. -/
theorem execute_withRandom (m : Machine) (q : KeyStream) (a : UInt16) (w : Word) {i : Instruction}
    (h : i.draws = false) : (m.withRandom q).execute a w i =
      ((m.execute a w i).1, (m.execute a w i).2.withRandom q) := by
  cases i with
  | random x nn => cases h
  | draw | loadRegisters =>
      dsimp only [execute, reading, withRandom]
      split <;> rfl
  | storeDecimal | storeRegisters =>
      dsimp only [execute, writing, withRandom]
      split <;> rfl
  | skipPressed | skipReleased =>
      dsimp only [execute, asking, withRandom]
      split <;> rfl
  | ret | call | waitKey =>
      dsimp only [execute, withRandom]
      split <;> rfl
  | _ => rfl

theorem Cycled.withRandom {m m' : Machine} {r : Except Fault Instruction} (h : Cycled m r m')
    (hr : ∀ i, r = .ok i → i.draws = false) (q : KeyStream) :
    Cycled (m.withRandom q) r (m'.withRandom q) := by
  cases h with
  | unfetched hs hpc => exact .unfetched hs hpc
  | undecoded hs hpc hd => exact .undecoded hs hpc hd
  | @refused i e m₁ hs hpc hd he =>
      -- a draw is never refused
      have hi : i.draws = false := by
        cases i with
        | random x nn => cases he
        | _ => rfl
      have hexec := execute_withRandom m.advanced q m.registers.pc m.word hi
      rw [he] at hexec
      have hq : Cycled (m.withRandom q) (.error e) (m₁.withRandom q).halt :=
        .refused (m := m.withRandom q) hs hpc hd hexec
      exact hq
  | @executed i m₁ hs hpc hd he =>
      have hexec := execute_withRandom m.advanced q m.registers.pc m.word (hr i rfl)
      rw [he] at hexec
      have hq : Cycled (m.withRandom q) (.ok i) ((m₁.withRandom q).record i) :=
        .executed (m := m.withRandom q) hs hpc hd hexec
      exact hq
  | released hs hkey => exact .released hs hkey
  | blocked hs hkey => exact .blocked hs hkey
  | stopped hs => exact .stopped hs

/-- A draw puts the masked byte into its register and takes one word off the stream. -/
theorem random_of_drawn {m m' : Machine} {x nn : UInt8} (h : Cycled m (.ok (.random x nn)) m') :
    m'.registers.get x = m.random.peek &&& nn ∧ m'.random = m.random.advance := by
  cases h with
  | executed _ _ _ he =>
      cases he
      refine ⟨?_, rfl⟩
      have hput := m.advanced.registers.get_put x x (m.random.peek &&& nn)
      rwa [if_pos rfl] at hput

/-- No other cycle touches the stream, whether or not it succeeds. -/
theorem random_of_undrawn {m m' : Machine} {r : Except Fault Instruction} (h : Cycled m r m')
    (hr : ∀ i, r = .ok i → i.draws = false) : m'.random = m.random := by
  -- put on the stream that it is on, the machine is the same, and so is the one it leaves
  have hsame := (h.withRandom hr m.random).cycle_eq
  rw [show m.withRandom m.random = m from rfl, h.cycle_eq] at hsame
  exact congrArg (·.2.random) hsame

/-! ## The record of a run -/

/-- The instructions that at most `n` cycles execute, each with the machine that it leaves. -/
def executions : Nat → Machine → List (Instruction × Machine)
  | 0, _ => []
  | n + 1, m =>
    match m.cycle with
    | (.ok i, m') => (i, m') :: executions n m'
    | (.error _, _) => []

/-- The record since the last reset, after an operation. `past` is the record before. -/
def logged (m : Machine) (past : List (Instruction × Machine)) :
    Operation → List (Instruction × Machine)
  | .event .cycle => past ++ executions 1 m
  | .run n => past ++ executions n m
  | .reset => []
  | _ => past

/-- The record since the last reset, after operations. -/
def log (m : Machine) (past : List (Instruction × Machine)) :
    List Operation → List (Instruction × Machine)
  | [] => past
  | op :: ops => (m.perform op).2.log (m.logged past op) ops

/-- How many of the instructions in a record draw. -/
def drawn (log : List (Instruction × Machine)) : Nat :=
  log.countP fun e => e.1.draws

@[simp] theorem drawn_append (log log' : List (Instruction × Machine)) :
    drawn (log ++ log') = drawn log + drawn log' :=
  List.countP_append

/-- The instructions in a record are those of the history. -/
theorem map_fst_executions (n : Nat) (is : List Instruction) (m : Machine) :
    is ++ (executions n m).map Prod.fst = (runWith (fun _ i is => is ++ [i]) n is m).1 := by
  induction n generalizing is m with
  | zero => exact List.append_nil is
  | succ n ih =>
      rw [executions, runWith]
      rcases m.cycle with ⟨e | i, m'⟩
      · exact List.append_nil is
      · rw [List.map_cons, List.append_cons, ih]

theorem map_fst_logged (m : Machine) (past : List (Instruction × Machine)) (op : Operation) :
    (m.logged past op).map Prod.fst = m.recorded (past.map Prod.fst) op := by
  cases op with
  | event e =>
      cases e with
      | cycle =>
          rw [logged, recorded, List.map_append, executions]
          rcases m.cycle with ⟨e | i, m'⟩ <;> rfl
      | _ => rfl
  | run n => rw [logged, recorded, List.map_append, map_fst_executions]
  | _ => rfl

theorem map_fst_log (m : Machine) (past : List (Instruction × Machine)) (ops : List Operation) :
    (m.log past ops).map Prod.fst = m.history (past.map Prod.fst) ops := by
  induction ops generalizing m past with
  | nil => rfl
  | cons op ops ih => rw [log, history, ih, map_fst_logged]

/-! ## The record follows the stream -/

/-- What an instruction left, `j` draws after the start of the stream of a seed. -/
structure Follows (s : UInt64) (j : Nat) (i : Instruction) (m : Machine) : Prop where
  random : m.random = ⟨.ofSeed s, if i.draws then j + 1 else j⟩
  byte : ∀ x nn, i = .random x nn →
    m.registers.get x = (KeyStream.word (.ofSeed s) j).toUInt8 &&& nn

theorem follows_of_cycled {s : UInt64} {j : Nat} {m m' : Machine} {i : Instruction}
    (hm : m.random = ⟨.ofSeed s, j⟩) (h : Cycled m (.ok i) m') : Follows s j i m' := by
  by_cases hi : ∃ x nn, i = .random x nn
  · obtain ⟨x, nn, rfl⟩ := hi
    obtain ⟨hbyte, hadvance⟩ := random_of_drawn h
    rw [hm] at hbyte hadvance
    refine ⟨hadvance, fun x' nn' he => ?_⟩
    cases he
    exact hbyte
  · have hdraws : i.draws = false := by
      cases i with
      | random x nn => exact absurd ⟨x, nn, rfl⟩ hi
      | _ => rfl
    have hsame : m'.random = m.random := random_of_undrawn h fun i' he => by
      cases he
      exact hdraws
    refine ⟨?_, fun x nn he => absurd ⟨x, nn, he⟩ hi⟩
    rw [hsame, hm, hdraws]
    rfl

/-- The record follows the stream of a seed, and the machine draws on it next. -/
structure Followed (s : UInt64) (log : List (Instruction × Machine)) (m : Machine) : Prop where
  seed : m.seed = some s
  random : m.random = ⟨.ofSeed s, drawn log⟩
  entries : ∀ (k : Nat) (i : Instruction) (m' : Machine), log[k]? = some (i, m') →
    Follows s (drawn (log.take k)) i m'

theorem followed_ofSeed (s : UInt64) : Followed s [] (ofSeed s) where
  seed := rfl
  random := rfl
  entries := by intro k i m' h; cases h

namespace Followed

variable {s : UInt64} {past : List (Instruction × Machine)} {m m' : Machine}

/-- What touches neither the seed nor the stream. -/
theorem congr (h : Followed s past m) (hs : m'.seed = m.seed) (hr : m'.random = m.random) :
    Followed s past m' where
  seed := hs.trans h.seed
  random := hr.trans h.random
  entries := h.entries

/-- **One more instruction follows the stream.** -/
theorem executed {i : Instruction} (h : Followed s past m) (hc : Cycled m (.ok i) m') :
    Followed s (past ++ [(i, m')]) m' := by
  have hf := follows_of_cycled h.random hc
  refine ⟨(seed_cycled hc).trans h.seed, ?_, fun k i' m₁ hk => ?_⟩
  · rw [hf.random, drawn_append, drawn, drawn, List.countP_singleton]
    split <;> rfl
  · rcases getElem?_concat_cases hk with ⟨hlt, hk⟩ | ⟨rfl, he⟩
    · -- an entry of the past has the same draws before it
      rw [List.take_append_of_le_length (Nat.le_of_lt hlt)]
      exact h.entries k i' m₁ hk
    · cases he
      rw [List.take_left]
      exact hf

theorem faulted {e : Fault} (h : Followed s past m) (hc : Cycled m (.error e) m') :
    Followed s past m' :=
  h.congr (seed_cycled hc) (random_of_undrawn hc fun _ he => by cases he)

theorem run (h : Followed s past m) (n : Nat) :
    Followed s (past ++ executions n m) (m.run n).2 := by
  induction n generalizing past m with
  | zero =>
      rw [executions, List.append_nil]
      exact h
  | succ n ih =>
      rw [executions, run_succ]
      rcases hc : m.cycle with ⟨e | i, m₁⟩
      · rw [List.append_nil]
        exact h.faulted (cycled_of_eq hc)
      · rw [List.append_cons]
        exact ih (h.executed (cycled_of_eq hc))

/-- **No operation takes a word off the stream but for a draw**, and a reset starts it anew. -/
theorem perform (h : Followed s past m) (op : Operation) :
    Followed s (m.logged past op) (m.perform op).2 := by
  cases op with
  | event e =>
      cases e with
      | cycle =>
          have hone := h.run 1
          rw [run_succ] at hone
          simp only [Machine.perform, handle, logged]
          rcases hc : m.cycle with ⟨e | i, m₁⟩ <;> rw [hc] at hone <;> exact hone
      | tick => exact h.congr rfl rfl
      | key key down =>
          obtain ⟨keypad, hm⟩ := m.exists_handle_key key down
          simp only [logged, Machine.perform, hm]
          exact h.congr rfl rfl
      | repaint => exact h.congr rfl rfl
  | run n =>
      rw [Machine.perform, runCycles_snd]
      exact h.run n
  | load program =>
      obtain ⟨memory, hm⟩ := m.exists_perform_load program
      simp only [logged, hm]
      exact h.congr rfl rfl
  | reset =>
      refine ⟨h.seed, ?_, fun k i m' hk => by cases hk⟩
      simp only [logged, Machine.perform, reset, powerOn, resetRandom, h.seed]
      rfl

theorem perform_all (h : Followed s past m) (ops : List Operation) :
    Followed s (m.log past ops) (answersTo Machine.perform m ops).2 := by
  induction ops generalizing past m with
  | nil => exact h
  | cons op ops ih => exact ih (h.perform op)

end Followed

/--
**Draws follow the seed, and nothing else consumes its stream.**

After any operations, the place in the stream of the seed is the number of draws since
the last reset. And so it is after each instruction that was executed since then: a draw
after `j` others has put the low byte of word `j`, masked, into its register.
-/
theorem draws_follow_seed (seed : UInt64) (ops : List Operation) :
    let log := (ofSeed seed).log [] ops
    let m := (answersTo perform (ofSeed seed) ops).2
    log.map Prod.fst = (ofSeed seed).history [] ops ∧
    m.random = ⟨.ofSeed seed, drawn log⟩ ∧
    ∀ (k : Nat) (i : Instruction) (m' : Machine), log[k]? = some (i, m') →
      let j := drawn (log.take k)
      m'.random = ⟨.ofSeed seed, if i.draws then j + 1 else j⟩ ∧
      ∀ x nn, i = .random x nn →
        m'.registers.get x = (KeyStream.word (.ofSeed seed) j).toUInt8 &&& nn := by
  intro log m
  have h : Followed seed log m := (followed_ofSeed seed).perform_all ops
  refine ⟨map_fst_log _ [] ops, h.random, fun k i m' hk => ?_⟩
  exact ⟨(h.entries k i m' hk).random, (h.entries k i m' hk).byte⟩

/-- After a reset the third draw gets the third byte of the seed, `0x86`, although the mask of the
second was zero and the run that they are part of ends with a fault. -/
theorem draws_follow_seed_masked :
    let image : List UInt8 := [0xC0, 0xFF, 0xC1, 0x00, 0xC2, 0x0F, 0x00, 0xEE]
    let ops : List Operation :=
      [.load image, .run 2, .reset, .load image, .run 1, .event .tick, .run 5]
    let log := (ofSeed 7).log [] ops
    ∃ m', log[2]? = some (.random 2 0x0F, m') ∧ m'.registers.get 2 = 0x06 ∧
      m'.random.position = 3 := by
  intro image ops log
  have hlog : log[2]?.map Prod.fst = some (.random 2 0x0F) ∧ drawn (log.take 2) = 2 := by
    decide +kernel
  obtain ⟨⟨i, m'⟩, hk, hi⟩ := Option.map_eq_some_iff.mp hlog.1
  cases hi
  obtain ⟨-, -, hentries⟩ := draws_follow_seed 7 ops
  obtain ⟨hrandom, hbyte⟩ := hentries 2 _ m' hk
  have hword : (KeyStream.word (.ofSeed 7) 2).toUInt8 = 0x86 := by decide +kernel
  refine ⟨m', hk, ?_, ?_⟩
  · rw [hbyte 2 0x0F rfl, hlog.2, hword]
    decide
  · rw [hrandom, hlog.2]
    decide

end Machine

end ChipEight
