import ChipEight.CommandLine.Program
import ChipEight.Proofs.Draws
import ChipEight.Proofs.ListingLines
import ChipEight.Proofs.Steps

/-!
# A trace only adds lines

Asked for a trace, the program prints what it prints without one, and between the first
line and the result a heading and a line for each cycle that succeeded. Nothing else
changes: not the result, not the exit code, not what is said of a fault. And as many
lines are added as the result says that cycles were counted.

A run with a trace and one without are two runs, each with a stream of its own if there
is no seed. The observer makes no difference between them, since every observer sees the
same steps (`runConsole_eq`). The stream makes none if nothing is drawn: two runs of one
program on two streams part at a draw and nowhere else (`run_withRandom`), and so do the
frames of a console (`headless_withRandom`). What is printed after a run does not show the
stream.
-/

namespace ChipEight

/-! ## Runs without random draws -/

/-- No step draws a random byte. -/
def Undrawn (steps : List (UInt16 × Instruction)) : Prop :=
  ∀ p ∈ steps, p.2.draws = false

instance (steps : List (UInt16 × Instruction)) : Decidable (Undrawn steps) :=
  inferInstanceAs (Decidable (∀ p ∈ steps, p.2.draws = false))

namespace Machine

theorem cycle_withRandom {m : Machine} (h : ∀ i, m.cycle.1 = .ok i → i.draws = false)
    (q : KeyStream) : (m.withRandom q).cycle = (m.cycle.1, m.cycle.2.withRandom q) :=
  (m.cycle_cycled.withRandom h q).cycle_eq

/-- **A run that draws nothing is the same run on any stream.** -/
theorem run_withRandom {m : Machine} {n : Nat} (h : Undrawn (m.steps n)) (q : KeyStream) :
    (m.withRandom q).steps n = m.steps n ∧
      (m.withRandom q).run n = ((m.run n).1, (m.run n).2.withRandom q) := by
  induction n generalizing m with
  | zero => exact ⟨rfl, rfl⟩
  | succ n ih =>
      rw [steps_succ] at h
      rw [steps_succ, steps_succ, run_succ, run_succ]
      rcases hm : m.cycle with ⟨e | i, m'⟩ <;> rw [hm] at h
      · rw [cycle_withRandom (by rw [hm]; intro i hi; cases hi), hm]
        exact ⟨rfl, rfl⟩
      · have hi : i.draws = false := h _ List.mem_cons_self
        rw [cycle_withRandom (by rw [hm]; rintro _ ⟨⟩; exact hi), hm]
        obtain ⟨hsteps, hrun⟩ := ih fun p hp => h p (List.mem_cons_of_mem _ hp)
        exact ⟨congrArg₂ List.cons rfl hsteps, hrun⟩

end Machine

namespace Console

/-- The console with its machine on another stream. -/
def withRandom (c : Console) (random : KeyStream) : Console :=
  c.withMachine (c.machine.withRandom random)

theorem runFrame_withRandom {c : Console} (h : Undrawn (c.machine.steps c.budget.toNat))
    (q : KeyStream) : (c.withRandom q).runFrame = (c.runFrame.1, c.runFrame.2.withRandom q) := by
  have hrun := (Machine.run_withRandom h q).2
  rw [runFrame, runFrame, runFrameWith, runFrameWith, Machine.runWith_eq, Machine.runWith_eq]
  have hsame : (c.withRandom q).machine.run (c.withRandom q).budget.toNat =
      (c.machine.withRandom q).run c.budget.toNat := rfl
  rw [hsame, hrun]
  rcases c.machine.run c.budget.toNat with ⟨_ | e, m⟩ <;> rfl

/-- **Frames in which nothing is drawn are the same on any stream.** -/
theorem headless_withRandom {c : Console} {n : Nat} (h : Undrawn (c.steps n)) (q : KeyStream) :
    (c.withRandom q).steps n = c.steps n ∧
      (c.withRandom q).headless n = ((c.headless n).1, (c.headless n).2.withRandom q) := by
  induction n generalizing c with
  | zero => exact ⟨rfl, rfl⟩
  | succ n ih =>
      rw [steps_succ] at h
      have hframe : Undrawn (c.machine.steps c.budget.toNat) :=
        fun p hp => h p (List.mem_append_left _ hp)
      have hsteps : (c.withRandom q).machine.steps (c.withRandom q).budget.toNat =
          c.machine.steps c.budget.toNat := (Machine.run_withRandom hframe q).1
      rw [steps_succ, steps_succ, headless_succ, headless_succ, hsteps,
        runFrame_withRandom hframe]
      rcases hc : c.runFrame with ⟨e | r, c'⟩ <;> rw [hc] at h
      · exact ⟨rfl, rfl⟩
      · cases hkey : r.awaitingKey with
        | true => simp only [hkey, ↓reduceIte, and_self]
        | false =>
            simp only [hkey, Bool.false_eq_true, ↓reduceIte] at h ⊢
            obtain ⟨hsteps', hheadless⟩ := ih fun p hp => h p (List.mem_append_right _ hp)
            exact ⟨congrArg _ hsteps', hheadless⟩

end Console

/-! ## The lines of a trace -/

theorem Machine.oneLine_traceLine (a : UInt16) (i : Instruction) : OneLine (traceLine a i) := by
  rw [traceLine, oneLine_append, oneLine_append]
  exact ⟨⟨Hex.oneLine_literal 3 a.toNat, by decide⟩, i.oneLine_assembly⟩

namespace CommandLine

/-! ## Before the run -/

theorem validate_of_chooseSettings {files : FileReader} {t : Timing} {s : Settings}
    (h : chooseSettings files t = .ok s) : s.validate = .ok () := by
  unfold chooseSettings at h
  split at h
  · cases h
  · split at h
    · rename_i hs
      cases h
      exact hs
    · cases h

theorem length_of_validate {image : List UInt8} (h : Image.validate image = .ok ()) :
    image.length ≤ 3584 := by
  unfold Image.validate at h
  split at h
  · cases h
  · split at h
    · cases h
    · rename_i hfits
      exact Nat.not_lt.mp hfits

theorem length_of_chooseImage {files : FileReader} {path : String} {image : List UInt8}
    (h : chooseImage files path = .ok image) : image.length ≤ 3584 := by
  unfold chooseImage Image.read at h
  cases hread : files path with
  | error e =>
      rw [hread] at h
      cases h
  | ok bytes =>
      rw [hread] at h
      cases hvalid : Image.validate bytes with
      | error e =>
          simp only [hvalid] at h
          cases h
      | ok _ =>
          simp only [hvalid] at h
          cases h
          exact length_of_validate hvalid

/-- What is chosen for a run is acceptable. -/
theorem valid_of_choose {files : FileReader} {t : Timing} {path : String} {s : Settings}
    {image : List UInt8} (h : choose files t path = .ok (s, image)) :
    s.validate = .ok () ∧ image.length ≤ 3584 := by
  unfold choose at h
  split at h
  · cases h
  · rename_i hs
    split at h
    · cases h
    · rename_i hi
      cases h
      exact ⟨validate_of_chooseSettings hs, length_of_chooseImage hi⟩

/-- What is acceptable gives a console that has counted nothing yet, and from every stream the same
one but for the stream. With a seed, the stream is the same as well. -/
theorem exists_prepare {s : Settings} {image : List UInt8} (hs : s.validate = .ok ())
    (hi : image.length ≤ 3584) (entropy entropy' : KeyStream) :
    ∃ (c : Console) (q : KeyStream), prepare s image entropy = .ok c ∧
      prepare s image entropy' = .ok (c.withRandom q) ∧ c.machine.cycles = 0 ∧
      (s.seed ≠ none → c.withRandom q = c) := by
  obtain ⟨memory, hmemory⟩ : ∃ memory, Memory.powerOn.load image = (.ok (), memory) :=
    ⟨_, Memory.powerOn.load_of_le hi⟩
  have hprepare : ∀ e, prepare s image e =
      .ok ⟨{ Console.freshMachine s e with memory }, s, 0, 0⟩ := by
    intro e
    have hpower : (Console.freshMachine s e).memory = .powerOn := by
      unfold Console.freshMachine
      split <;> rfl
    simp only [prepare, Console.new, hs, Console.load, Machine.load, hpower, hmemory,
      Console.withMachine]
  refine ⟨_, (Console.freshMachine s entropy').random, hprepare entropy, ?_, ?_, ?_⟩
  · rw [hprepare]
    unfold Console.freshMachine
    cases s.seed <;> rfl
  · unfold Console.freshMachine
    cases s.seed <;> rfl
  · intro hseed
    unfold Console.freshMachine
    cases h : s.seed with
    | none => exact absurd h hseed
    | some seed => rfl

/-! ## The run -/

/-- **A traced run is the run**, and its trace shows the steps. -/
theorem runConsole_eq (o : RunOptions) (c : Console) :
    runConsole o c =
      (if o.tracing then Machine.traceLines (c.steps o.frames) else [], c.headless o.frames) := by
  unfold runConsole
  split
  · dsimp only
    rw [Console.runHeadless_eq, Machine.noted_traceLine, List.append_nil, List.reverse_reverse]
  · rw [Console.runHeadless_eq]

theorem run_of_prepare {files : FileReader} {entropy : KeyStream} {path : String} {o : RunOptions}
    {s : Settings} {image : List UInt8} {c : Console}
    (hchoose : choose files o.timing path = .ok (s, image))
    (hc : prepare s image entropy = .ok c) :
    run files entropy path o =
      conclude o (if o.json then "" else opening path image)
        (if o.tracing then Machine.traceLines (c.steps o.frames) else [])
        (c.headless o.frames).1 (c.headless o.frames).2 := by
  simp only [run, hchoose, hc, runConsole_eq]

/-- Two consoles of one run, that differ in their streams, do the same unless one of them draws and
there is no seed. -/
theorem headless_of_prepare {s : Settings} {c : Console} {q : KeyStream} {n : Nat}
    (hseeded : s.seed ≠ none → c.withRandom q = c) (h : s.seed ≠ none ∨ Undrawn (c.steps n)) :
    ∃ r, (c.withRandom q).steps n = c.steps n ∧
      (c.withRandom q).headless n = ((c.headless n).1, (c.headless n).2.withRandom r) := by
  rcases h with hseed | hundrawn
  · rw [hseeded hseed]
    exact ⟨(c.headless n).2.machine.random, rfl, rfl⟩
  · exact ⟨q, Console.headless_withRandom hundrawn q⟩

/-! ## What is printed -/

/-- What is printed does not show the stream. -/
theorem conclude_withRandom (o : RunOptions) (start : String) (lines : List String)
    (ending : Ending) (c : Console) (q : KeyStream) :
    conclude o start lines ending (c.withRandom q) = conclude o start lines ending c :=
  rfl

theorem stdout_conclude (o : RunOptions) (start : String) (lines : List String) (ending : Ending)
    (c : Console) : (conclude o start lines ending c).stdout = start ++ body o lines ending c ++
      (if o.screen then screenReport c else "") := by
  cases ending <;> rfl

/-- The result begins with the counters, and the trace comes before it. -/
theorem exists_stdout (frames : Nat) (screen : Bool) (timing : Timing) (start : String)
    (ending : Ending) (c : Console) : ∃ rest, ∀ (trace : Bool) (lines : List String),
      (conclude ⟨frames, trace, false, screen, timing⟩ start lines ending c).stdout =
        start ++ (if trace then traceReport lines else "") ++
          ("\n" ++ line "━━━ Result ━━━" ++ line ("Frames: " ++ decimal c.frames) ++
            line ("Cycles: " ++ decimal c.machine.cycles) ++ rest) := by
  obtain ⟨rest, hresult⟩ : ∃ rest, result c = "\n" ++ line "━━━ Result ━━━" ++
      line ("Frames: " ++ decimal c.frames) ++ line ("Cycles: " ++ decimal c.machine.cycles) ++
        rest := by
    simp only [result, String.append_assoc, String.append_right_inj, exists_eq']
  refine ⟨rest ++ waitNote ending ++ (if screen then screenReport c else ""), ?_⟩
  intro trace lines
  rw [stdout_conclude]
  simp only [body, hresult, Bool.false_eq_true, ↓reduceIte, String.append_assoc]

/--
**A trace is a pure observer.**

Take an image and settings that are accepted, with a seed, or such that the run executes
no random draw. With and without a trace, each on a stream of its own, the program exits
with the same code and says the same on the error stream. With a trace it prints what it
prints without one, but after the first line an empty line, a heading, and the lines of
the trace, as many as the result says that cycles were counted. When the state is printed
as JSON, a trace changes nothing.
-/
theorem trace_only_adds_lines {files : FileReader} {path : String} {o : RunOptions} {s : Settings}
    {image : List UInt8} {entropy : KeyStream} (entropy' : KeyStream)
    (hchoose : choose files o.timing path = .ok (s, image))
    (hsame : s.seed ≠ none ∨
      ∀ c, prepare s image entropy = .ok c → Undrawn (c.steps o.frames)) :
    let plain := run files entropy path { o with trace := false }
    let traced := run files entropy' path { o with trace := true }
    traced.exit = plain.exit ∧ traced.stderr = plain.stderr ∧
    (o.json = true → traced = plain) ∧
    (o.json = false → ∃ (lines : List String) (frames : Nat) (rest : String),
      let report := "\n" ++ line "━━━ Result ━━━" ++ line ("Frames: " ++ decimal frames) ++
        line ("Cycles: " ++ decimal lines.length) ++ rest
      (∀ l ∈ lines, OneLine l) ∧
      plain.stdout = opening path image ++ report ∧
      traced.stdout = opening path image ++
        ("\n" ++ line "━━━ Execution ━━━" ++ String.join (lines.map line)) ++ report) := by
  obtain ⟨n, trace, json, screen, timing⟩ := o
  intro plain traced
  obtain ⟨hs, hi⟩ := valid_of_choose hchoose
  obtain ⟨c, q, hc, hc', hcycles, hseeded⟩ := exists_prepare hs hi entropy entropy'
  obtain ⟨r, hsteps, hheadless⟩ :=
    headless_of_prepare (n := n) hseeded (hsame.imp_right fun h => h c hc)
  have hcount := c.cycles_headless n
  have hplain : plain = _ := run_of_prepare (o := ⟨n, false, json, screen, timing⟩) hchoose hc
  have htraced : traced = _ := run_of_prepare (o := ⟨n, true, json, screen, timing⟩) hchoose hc'
  rw [hsteps, hheadless, conclude_withRandom] at htraced
  rcases hlast : c.headless n with ⟨ending, c₁⟩
  rw [hlast] at hplain htraced hcount
  rw [hplain, htraced]
  refine ⟨by cases ending <;> rfl, by cases ending <;> rfl, ?_, ?_⟩
  · rintro rfl
    cases ending <;> rfl
  · rintro rfl
    obtain ⟨rest, hstdout⟩ := exists_stdout n screen timing (opening path image) ending c₁
    have hlength : (Machine.traceLines (c.steps n)).length = c₁.machine.cycles := by
      rw [Machine.traceLines, List.length_map, hcount, hcycles, Nat.zero_add]
    refine ⟨Machine.traceLines (c.steps n), c₁.frames, rest, fun l hl => ?_, ?_, ?_⟩
    · obtain ⟨p, -, rfl⟩ := List.mem_map.mp hl
      exact Machine.oneLine_traceLine p.1 p.2
    · rw [hlength]
      have hprinted := hstdout false []
      rwa [if_neg Bool.false_ne_true, String.append_empty] at hprinted
    · rw [hlength]
      have hprinted := hstdout true (Machine.traceLines (c.steps n))
      rwa [if_pos rfl, traceReport] at hprinted

/-- Without a seed, and each on another stream: a program that returns without a call, in the
middle of its first frame. -/
theorem trace_only_adds_lines_return :
    let image : List UInt8 := [0x60, 0x05, 0x00, 0xEE]
    let files : FileReader := fun _ => .ok image
    let o : RunOptions := ⟨3, false, false, true, ⟨none, none, none⟩⟩
    let plain := run files (.ofSeed 1) "a.ch8" { o with trace := false }
    let traced := run files (.ofSeed 2) "a.ch8" { o with trace := true }
    choose files o.timing "a.ch8" = .ok (.standard, image) ∧
      (∀ c, prepare .standard image (.ofSeed 1) = .ok c → Undrawn (c.steps o.frames)) ∧
      plain.exit = 1 ∧ traced.exit = 1 ∧ traced.stderr = plain.stderr ∧
      ∃ (lines : List String) (rest : String),
        plain.stdout = opening "a.ch8" image ++ rest ∧
        traced.stdout = opening "a.ch8" image ++
          ("\n" ++ line "━━━ Execution ━━━" ++ String.join (lines.map line)) ++ rest := by
  intro image files o plain traced
  have hchoose : choose files o.timing "a.ch8" = .ok (.standard, image) := rfl
  have hundrawn : ∀ c, prepare .standard image (.ofSeed 1) = .ok c →
      Undrawn (c.steps o.frames) := by
    intro c hc
    have hrun : (prepare .standard image (.ofSeed 1)).toOption.map
        (fun c => decide (Undrawn (c.steps o.frames))) = some true := by decide +kernel
    rw [hc] at hrun
    exact of_decide_eq_true (Option.some.inj hrun)
  have hexit : plain.exit = 1 := by decide +kernel
  obtain ⟨hsame, hstderr, -, htext⟩ :=
    trace_only_adds_lines (.ofSeed 2) hchoose (.inr hundrawn)
  obtain ⟨lines, _, _, -, hplain, htraced⟩ := htext rfl
  exact ⟨hchoose, hundrawn, hexit, hsame.trans hexit, hstderr, lines, _, hplain, htraced⟩

end CommandLine

end ChipEight
