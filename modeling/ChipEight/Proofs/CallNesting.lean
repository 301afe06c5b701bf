import ChipEight.Proofs.Cycle
import ChipEight.Proofs.Runs

/-!
# Calls and returns nest

A subroutine gets back to the instruction after its call, whatever it does in
between: call others and itself, rewrite the program, block on keys. All that is
asked is that it does not return more often than it calls.

`Stacked` says what a cycle can do to the live return addresses: a call adds the
address after it at the end, a return takes the last one off and goes there, and
nothing else touches them. So the addresses that were live at some time stay the
front of the list for as long as the stack is no shorter, and the first return that
makes it shorter finds the last of them.

Counted over a run, the same list gives the depth: it is the number of calls less
the number of returns since the last reset.
-/

namespace ChipEight

/-- Whether an instruction is a call. -/
def Instruction.isCall : Instruction → Bool
  | call _ => true
  | _ => false

namespace Machine

/-! ## What a cycle does to the return addresses -/

/-- `Stacked m r m'`: a cycle of `m` that answers `r` may leave `m'`, as far as the live return
addresses go. -/
inductive Stacked (m : Machine) : Except Fault Instruction → Machine → Prop where
  | called {addr : UInt16} {m' : Machine} : m.registers.pc.toNat ≤ 0xFFE →
      m'.registers.stack.live = m.registers.stack.live ++ [m.registers.pc + 2] →
      Stacked m (.ok (.call addr)) m'
  | returned {m' : Machine} :
      m.registers.stack.live = m'.registers.stack.live ++ [m'.registers.pc] →
      Stacked m (.ok .ret) m'
  | unmoved {r : Except Fault Instruction} {m' : Machine} : (∀ addr, r ≠ .ok (.call addr)) →
      r ≠ .ok .ret → m'.registers.stack.live = m.registers.stack.live → Stacked m r m'

theorem Stacked.of_error {m m' : Machine} {e : Fault}
    (h : m'.registers.stack.live = m.registers.stack.live) : Stacked m (.error e) m' := by
  refine .unmoved (fun addr he => ?_) (fun he => ?_) h <;> cases he

theorem Stacked.of_waitKey {m m' : Machine} {x : UInt8}
    (h : m'.registers.stack.live = m.registers.stack.live) : Stacked m (.ok (.waitKey x)) m' := by
  refine .unmoved (fun addr he => ?_) (fun he => ?_) h <;> cases he

/-- **There is nothing else that a cycle does to them.** -/
theorem Cycled.stacked {m m' : Machine} {r : Except Fault Instruction} (h : Cycled m r m') :
    Stacked m r m' := by
  cases h with
  | unfetched _ _ => exact .of_error rfl
  | undecoded _ _ _ => exact .of_error rfl
  | refused _ _ hd he =>
      obtain ⟨_, rfl⟩ := (execute_eq_error_iff (Word.inRange_of_decode? hd)).mp he
      exact .of_error rfl
  | @executed i m' _ hpc _ he =>
      by_cases hcall : ∃ addr, i = .call addr
      · obtain ⟨addr, rfl⟩ := hcall
        simp only [execute, Registers.push] at he
        split at he
        · rename_i hp
          split at hp
          · rename_i hs
            cases hp
            cases he
            exact .called hpc (CallStack.live_push hs)
          · cases hp
        · cases he
      · by_cases hret : i = .ret
        · subst hret
          simp only [execute, Registers.pop] at he
          split at he
          · rename_i hp
            split at hp
            · rename_i hs
              cases hp
              cases he
              exact .returned (CallStack.live_pop hs)
            · cases hp
          · cases he
        · have hstack := execute_stack m.advanced m.registers.pc m.word
            (fun addr ha => hcall ⟨addr, ha⟩) hret
          rw [he] at hstack
          refine .unmoved (fun addr ha => ?_) (fun ha => ?_) (congrArg CallStack.live hstack)
          · cases ha
            exact hcall ⟨addr, rfl⟩
          · cases ha
            exact hret rfl
  | released _ _ => exact .of_waitKey rfl
  | blocked _ _ => exact .of_waitKey rfl
  | stopped _ => exact .of_error rfl

/-! ## Addresses stay while the stack is no shorter -/

variable {front : List UInt16}

theorem Stacked.keeps {m m' : Machine} {r : Except Fault Instruction} (h : Stacked m r m')
    (hfront : front <+: m.registers.stack.live)
    (hdepth : front.length ≤ m'.registers.stack.depth) : front <+: m'.registers.stack.live := by
  cases h with
  | called _ hlive =>
      rw [hlive]
      exact hfront.trans (List.prefix_append _ _)
  | returned hlive =>
      rw [hlive] at hfront
      rw [← CallStack.length_live] at hdepth
      exact List.prefix_of_prefix_length_le hfront (List.prefix_append _ _) hdepth
  | unmoved _ _ hlive =>
      rw [hlive]
      exact hfront

theorem handle_keeps {m : Machine} (e : Event) (hfront : front <+: m.registers.stack.live)
    (hdepth : front.length ≤ (m.handle e).2.registers.stack.depth) :
    front <+: (m.handle e).2.registers.stack.live := by
  cases e with
  | cycle => exact m.cycle_cycled.stacked.keeps hfront hdepth
  | tick => exact hfront
  | key key down =>
      simp only [handle, setKey]
      cases m.keypad.set key down <;> exact hfront
  | repaint => exact hfront

/-- The machine after events. -/
def after (m : Machine) (events : List Event) : Machine :=
  (answersTo handle m events).2

/-- **Addresses stay where they are while the stack is no shorter**, at every point of a run. -/
theorem after_keeps {m : Machine} {events : List Event}
    (hfront : front <+: m.registers.stack.live)
    (hdepth : ∀ k ≤ events.length,
      front.length ≤ (m.after (events.take k)).registers.stack.depth) :
    ∀ k ≤ events.length, front <+: (m.after (events.take k)).registers.stack.live := by
  induction events generalizing m with
  | nil =>
      intro k _
      rw [List.take_nil]
      exact hfront
  | cons e es ih =>
      intro k hk
      cases k with
      | zero => exact hfront
      | succ k =>
          have hone : front.length ≤ (m.handle e).2.registers.stack.depth :=
            hdepth 1 (Nat.le_add_left 1 es.length)
          exact ih (handle_keeps e hfront hone)
            (fun j hj => hdepth (j + 1) (Nat.succ_le_succ hj)) k (Nat.le_of_succ_le_succ hk)

/-- While the events happen, more than `d` addresses are live. -/
def StaysDeeper (d : Nat) (m : Machine) (events : List Event) : Prop :=
  ∀ k ≤ events.length, d < (m.after (events.take k)).registers.stack.depth

instance (d : Nat) (m : Machine) (events : List Event) : Decidable (StaysDeeper d m events) :=
  inferInstanceAs (Decidable (∀ k ≤ events.length, _))

theorem live_of_called {m m₁ : Machine} {addr : UInt16} (h : m.cycle = (.ok (.call addr), m₁)) :
    m.registers.pc.toNat ≤ 0xFFE ∧
      m₁.registers.stack.live = m.registers.stack.live ++ [m.registers.pc + 2] := by
  cases (cycled_of_eq h).stacked with
  | called hpc hlive => exact ⟨hpc, hlive⟩
  | unmoved hr _ _ => exact absurd rfl (hr addr)

theorem live_of_returned {m m₁ : Machine} (h : m.cycle = (.ok .ret, m₁)) :
    m.registers.stack.live = m₁.registers.stack.live ++ [m₁.registers.pc] := by
  cases (cycled_of_eq h).stacked with
  | returned hlive => exact hlive
  | unmoved _ hr _ => exact absurd rfl hr

/-- What was live before a call, and the address after the call, stay in front until the call
returns. -/
theorem prefix_of_called {m m₁ : Machine} {addr : UInt16} {events : List Event}
    (hcall : m.cycle = (.ok (.call addr), m₁))
    (hdeep : StaysDeeper m.registers.stack.depth m₁ events) {k : Nat} (hk : k ≤ events.length) :
    m.registers.stack.live ++ [m.registers.pc + 2] <+:
      (m₁.after (events.take k)).registers.stack.live := by
  obtain ⟨-, hlive⟩ := live_of_called hcall
  rw [← hlive]
  refine after_keeps (List.prefix_refl _) (fun j hj => ?_) k hk
  rw [hlive, List.length_append, CallStack.length_live]
  exact hdeep j hj

/-! ## The depth counts calls less returns -/

/-- The depth is the number of calls less the number of returns. -/
def Balanced (is : List Instruction) (m : Machine) : Prop :=
  m.registers.stack.depth + is.count .ret = is.countP Instruction.isCall

/-- The balance looks at the stack only. -/
theorem Balanced.of_live {is : List Instruction} {m m' : Machine} (h : Balanced is m)
    (hlive : m'.registers.stack.live = m.registers.stack.live) : Balanced is m' := by
  have hdepth := congrArg List.length hlive
  rw [CallStack.length_live, CallStack.length_live] at hdepth
  rw [Balanced, hdepth]
  exact h

/-- One more instruction keeps the balance. -/
theorem Balanced.executed {is : List Instruction} {m m' : Machine} {i : Instruction}
    (h : Balanced is m) (hs : Stacked m (.ok i) m') : Balanced (is ++ [i]) m' := by
  rw [Balanced] at h
  rw [Balanced, List.count_append, List.countP_append]
  cases hs with
  | @called addr _ _ hlive =>
      have hdepth := congrArg List.length hlive
      rw [List.length_append, CallStack.length_live, CallStack.length_live] at hdepth
      have hcount : [Instruction.call addr].count .ret = 0 := rfl
      have hcalls : [Instruction.call addr].countP Instruction.isCall = 1 := rfl
      rw [hdepth, hcount, hcalls, ← h]
      exact Nat.add_right_comm _ _ _
  | returned hlive =>
      have hdepth := congrArg List.length hlive
      rw [List.length_append, CallStack.length_live, CallStack.length_live] at hdepth
      have hcount : [Instruction.ret].count .ret = 1 := rfl
      have hcalls : [Instruction.ret].countP Instruction.isCall = 0 := rfl
      rw [hcount, hcalls, ← h, hdepth, List.length_singleton]
      omega
  | unmoved hcall hret hlive =>
      have hcount : [i].count .ret = 0 := by
        rw [List.count_eq_zero, List.mem_singleton]
        exact fun hi => hret (congrArg _ hi.symm)
      have hcalls : [i].countP Instruction.isCall = 0 := by
        cases i with
        | call addr => exact absurd rfl (hcall addr)
        | _ => rfl
      rw [hcount, hcalls]
      exact Balanced.of_live h hlive

/-- **No operation upsets the balance.** -/
theorem balanced_kept : HistoryKept Balanced where
  executed h hm := h.executed (cycled_of_eq hm).stacked
  faulted h hm := by
    cases (cycled_of_eq hm).stacked with
    | unmoved _ _ hlive => exact h.of_live hlive
  tick h := h
  keypad _ h := h
  memory _ h := h
  reset _ := rfl

/-- **Calls and returns nest.** Take any call, and any events during which the stack stays deeper
than it was before the call. The addresses that were live before the call stay where they are.
When a return brings the stack back to that depth, the machine is at the instruction after the
call. And after any operations, the depth is the number of calls less the number of returns since
the last reset. -/
theorem calls_nest :
    (∀ (m m₁ : Machine) (addr : UInt16) (events : List Event),
      m.cycle = (.ok (.call addr), m₁) → StaysDeeper m.registers.stack.depth m₁ events →
        (∀ k ≤ events.length,
          (m₁.after (events.take k)).registers.stack.live.take m.registers.stack.depth =
            m.registers.stack.live) ∧
        ∀ m₂ : Machine, (m₁.after events).cycle = (.ok .ret, m₂) →
          m₂.registers.stack.depth = m.registers.stack.depth →
            m₂.registers.pc.toNat = m.registers.pc.toNat + 2 ∧
              m₂.registers.stack.live = m.registers.stack.live) ∧
    ∀ (random : KeyStream) (seed : Option UInt64) (ops : List Operation),
      let m := (answersTo perform (powerOn random seed) ops).2
      let is := (powerOn random seed).history [] ops
      m.registers.stack.depth + is.count .ret = is.countP Instruction.isCall ∧
        m.registers.stack.depth ≤ 16 := by
  constructor
  · intro m m₁ addr events hcall hdeep
    constructor
    · intro k hk
      obtain ⟨inner, hinner⟩ := prefix_of_called hcall hdeep hk
      rw [← hinner, List.append_assoc]
      exact List.take_left' (CallStack.length_live _)
    · intro m₂ hret hdepth
      obtain ⟨hpc, -⟩ := live_of_called hcall
      have hfront := prefix_of_called hcall hdeep (Nat.le_refl _)
      rw [List.take_length, live_of_returned hret] at hfront
      have heq := hfront.eq_of_length (by simp [hdepth])
      obtain ⟨hlive, hnext⟩ := List.append_inj' heq rfl
      rw [List.singleton_inj] at hnext
      exact ⟨hnext ▸ Registers.toNat_pc_advance (by omega), hlive.symm⟩
  · intro random seed ops
    have hstart : Balanced [] (powerOn random seed) := rfl
    exact ⟨balanced_kept.perform_all (fun _ => id) hstart, CallStack.depth_le _⟩

/-- A call at `0x200` whose subroutine makes a call of its own: it comes back to `0x202`. -/
theorem calls_nest_inner :
    let m := (answersTo perform (ofSeed 1)
      [.load [0x22, 0x04, 0x12, 0x02, 0x22, 0x08, 0x00, 0xEE, 0x00, 0xEE]]).2
    let m₁ := m.cycle.2
    let events : List Event := [.cycle, .tick, .cycle]
    let m₂ := (m₁.after events).cycle.2
    m.cycle = (.ok (.call 0x204), m₁) ∧ StaysDeeper m.registers.stack.depth m₁ events ∧
      (m₁.after events).cycle = (.ok .ret, m₂) ∧
      m₂.registers.pc.toNat = m.registers.pc.toNat + 2 := by
  intro m m₁ events m₂
  -- one evaluation for all hypotheses
  have hrun : m.cycle.1.toOption = some (.call 0x204) ∧
      StaysDeeper m.registers.stack.depth m₁ events ∧
      (m₁.after events).cycle.1.toOption = some .ret ∧
      m₂.registers.stack.depth = m.registers.stack.depth := by decide +kernel
  obtain ⟨hcall, hdeep, hret, hdepth⟩ := hrun
  obtain ⟨hpc, -⟩ :=
    (calls_nest.1 m m₁ 0x204 events (cycle_eq_ok hcall) hdeep).2 m₂ (cycle_eq_ok hret) hdepth
  exact ⟨cycle_eq_ok hcall, hdeep, cycle_eq_ok hret, hpc⟩

end Machine

end ChipEight
