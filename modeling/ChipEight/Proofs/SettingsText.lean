import ChipEight.Console
import ChipEight.Proofs.JsonPrinting
import ChipEight.Proofs.JsonReading
import ChipEight.Proofs.Numerals
import ChipEight.Proofs.Pacing
import ChipEight.Settings.Reader

/-!
# What a text of settings says

A text gives settings by the members of an object. Each setting looks only at the members
with its own name: it takes the one value that they hold, keeps its default if there is
none, and fails if there are two. So neither the order of the members nor what stands
between them makes a difference.

The members are taken one at a time, and each may change the state that the next one
meets. `giveMembers_eq_some_iff` takes this apart: a run over all members is three runs
side by side, one for each setting, over the members with its name. The induction is on
the members, and its step is that both ways of looking at a run can be cut after the
first of them.
-/

namespace ChipEight

/-! ## Settings as JSON values -/

namespace Json

/-- The values of the members with a name, in order. -/
def valuesOf (name : String) (members : List (List Char × Json)) : List Json :=
  (members.filter fun m => unescape? m.1 = some name.toList).map (·.2)

theorem valuesOf_singleton (name : String) (key : List Char) (v : Json) :
    valuesOf name [(key, v)] = if unescape? key = some name.toList then [v] else [] := by
  unfold valuesOf
  by_cases h : unescape? key = some name.toList <;> simp [h]

theorem valuesOf_cons (name : String) (m : List Char × Json) (members : List (List Char × Json)) :
    valuesOf name (m :: members) = valuesOf name [m] ++ valuesOf name members := by
  simp only [valuesOf, ← List.map_append, ← List.filter_append, List.singleton_append]

theorem numberText_toDigits (n : Nat) : NumberText (Nat.toDigits 10 n) := by
  have hwhole : Whole (Nat.toDigits 10 n) := by
    rcases Nat.eq_zero_or_pos n with rfl | hn
    · exact .zero
    · exact .digits ⟨Nat.toDigits_ne_nil, fun c hc => isDigit_of_mem_toDigits hc⟩
        (head?_toDigits_ne hn)
  have htext := NumberText.mk (.inl rfl) hwhole .absent .absent
  rwa [List.append_nil, List.append_nil, List.nil_append] at htext

theorem proper_ofNat (n : Nat) : (ofNat n).Proper :=
  .number (numberText_toDigits n)

theorem natural?_ofNat {limit n : Nat} (h : n < limit) : (ofNat n).natural? limit = some n :=
  decimalBelow?_toDigits h

theorem uint32?_ofNat (n : UInt32) : (ofNat n.toNat).uint32? = some n := by
  rw [uint32?, natural?_ofNat n.toNat_lt, Option.map_some, UInt32.ofNat_toNat]

/-- Characters that need no escape are their own spelling. -/
theorem body_of_plain (cs : List Char)
    (h : cs.all (fun c => c ≠ '"' ∧ c ≠ '\\' ∧ ' ' ≤ c) = true) : Body cs := by
  induction cs with
  | nil => exact .nil
  | cons c cs ih =>
      obtain ⟨hc, hcs⟩ := Bool.and_eq_true_iff.mp h
      obtain ⟨hquote, hslash, hblank⟩ := of_decide_eq_true hc
      exact .plain hquote hslash hblank (ih hcs)

end Json

namespace Settings

/-- A seed as a JSON value. -/
def seedJson : Option UInt64 → Json
  | some n => .ofNat n.toNat
  | none => .null

theorem optionalUInt64?_seedJson (s : Option UInt64) :
    (seedJson s).optionalUInt64? = some s := by
  cases s with
  | none => rfl
  | some n =>
      have hn : (Json.ofNat n.toNat).natural? UInt64.size = some n.toNat :=
        Json.natural?_ofNat n.toNat_lt
      rw [seedJson, Json.ofNat, Json.optionalUInt64?, ← Json.ofNat, hn, Option.map_some,
        UInt64.ofNat_toNat]
      rintro ⟨⟩

namespace Overrides

open Json (valuesOf)

/-- The members give these values and no other: no setting twice, each rate as a number and
the seed as a number or `null`. Members with other names may hold anything. -/
structure GivenBy (o : Overrides) (members : List (List Char × Json)) : Prop where
  /-- Every name is a text. -/
  named : ∀ m ∈ members, Json.unescape? m.1 ≠ none
  cycles : valuesOf "cycles_per_second" members =
    o.cyclesPerSecond.toList.map fun n => .ofNat n.toNat
  timer : valuesOf "timer_hz" members = o.timerHz.toList.map fun n => .ofNat n.toNat
  seed : valuesOf "seed" members = o.seed.toList.map seedJson

/-- Take the values that are given for one setting. Only one may be given. -/
def take? {α : Type} (read : Json → Option α) : Option α → List Json → Option (Option α)
  | before, [] => some before
  | none, v :: vs => (read v).bind fun a => take? read (some a) vs
  | some _, _ :: _ => none

section

variable {α : Type} {read : Json → Option α}

theorem take?_append (before : Option α) (vs ws : List Json) :
    take? read before (vs ++ ws) =
      (take? read before vs).bind fun after => take? read after ws := by
  induction vs generalizing before with
  | nil => rfl
  | cons v vs ih =>
      cases before with
      | some a => rfl
      | none =>
          cases hv : read v with
          | none => simp only [List.cons_append, take?, hv, Option.bind_none]
          | some a => simp only [List.cons_append, take?, hv, Option.bind_some, ih]

/-- One value, or none, that can be read. -/
theorem take?_toList {write : α → Json} (h : ∀ a, read (write a) = some a) (given : Option α) :
    take? read none (given.toList.map write) = some given := by
  cases given with
  | none => rfl
  | some a => simp [take?, h]

/-- Two values are one too many. -/
theorem take?_of_two_le {vs : List Json} (h : 2 ≤ vs.length) : take? read none vs = none := by
  match vs with
  | v :: w :: vs => cases hv : read v <;> simp [take?, hv]

end

/-! ## What the members give -/

theorem giveCycles_eq_some_iff {o o' : Overrides} {v : Json} :
    o.giveCycles v = some o' ↔ take? Json.uint32? o.cyclesPerSecond [v] = some o'.cyclesPerSecond ∧
      o.timerHz = o'.timerHz ∧ o.seed = o'.seed := by
  obtain ⟨cps, hz, seed⟩ := o
  obtain ⟨cps', hz', seed'⟩ := o'
  cases cps <;> cases hv : v.uint32? <;> simp [giveCycles, take?, hv]

theorem giveTimer_eq_some_iff {o o' : Overrides} {v : Json} :
    o.giveTimer v = some o' ↔ o.cyclesPerSecond = o'.cyclesPerSecond ∧
      take? Json.uint32? o.timerHz [v] = some o'.timerHz ∧ o.seed = o'.seed := by
  obtain ⟨cps, hz, seed⟩ := o
  obtain ⟨cps', hz', seed'⟩ := o'
  cases hz <;> cases hv : v.uint32? <;> simp [giveTimer, take?, hv]

theorem giveSeed_eq_some_iff {o o' : Overrides} {v : Json} :
    o.giveSeed v = some o' ↔ o.cyclesPerSecond = o'.cyclesPerSecond ∧
      o.timerHz = o'.timerHz ∧ take? Json.optionalUInt64? o.seed [v] = some o'.seed := by
  obtain ⟨cps, hz, seed⟩ := o
  obtain ⟨cps', hz', seed'⟩ := o'
  cases seed <;> cases hv : v.optionalUInt64? <;> simp [giveSeed, take?, hv]

/-- Each setting takes its values from the members with its name. -/
structure Takes (o : Overrides) (members : List (List Char × Json)) (o' : Overrides) : Prop where
  named : ∀ m ∈ members, Json.unescape? m.1 ≠ none
  cycles : take? Json.uint32? o.cyclesPerSecond (valuesOf "cycles_per_second" members) =
    some o'.cyclesPerSecond
  timer : take? Json.uint32? o.timerHz (valuesOf "timer_hz" members) = some o'.timerHz
  seed : take? Json.optionalUInt64? o.seed (valuesOf "seed" members) = some o'.seed

theorem takes_nil_iff {o o' : Overrides} : o.Takes [] o' ↔ o = o' := by
  constructor
  · intro ⟨_, hcycles, htimer, hseed⟩
    obtain ⟨cps, hz, seed⟩ := o
    cases hcycles
    cases htimer
    cases hseed
    rfl
  · rintro rfl
    exact ⟨List.forall_mem_nil _, rfl, rfl, rfl⟩

theorem takes_singleton_iff {o o' : Overrides} {key : List Char} {v : Json} :
    o.Takes [(key, v)] o' ↔ Json.unescape? key ≠ none ∧
      take? Json.uint32? o.cyclesPerSecond (valuesOf "cycles_per_second" [(key, v)]) =
        some o'.cyclesPerSecond ∧
      take? Json.uint32? o.timerHz (valuesOf "timer_hz" [(key, v)]) = some o'.timerHz ∧
      take? Json.optionalUInt64? o.seed (valuesOf "seed" [(key, v)]) = some o'.seed :=
  ⟨fun h => ⟨h.named _ List.mem_cons_self, h.cycles, h.timer, h.seed⟩,
    fun ⟨hnamed, hcycles, htimer, hseed⟩ =>
      ⟨fun _ hm => List.mem_singleton.mp hm ▸ hnamed, hcycles, htimer, hseed⟩⟩

/-- What members give, they give one after the other. -/
theorem takes_cons_iff {o o' : Overrides} {m : List Char × Json}
    {members : List (List Char × Json)} :
    o.Takes (m :: members) o' ↔ ∃ o₁ : Overrides, o.Takes [m] o₁ ∧ o₁.Takes members o' := by
  constructor
  · intro ⟨hnamed, hcycles, htimer, hseed⟩
    rw [Json.valuesOf_cons, take?_append, Option.bind_eq_some_iff] at hcycles htimer hseed
    obtain ⟨cps, hcps, hcycles⟩ := hcycles
    obtain ⟨hz, hhz, htimer⟩ := htimer
    obtain ⟨s, hs, hseed⟩ := hseed
    obtain ⟨hm, hmembers⟩ := List.forall_mem_cons.mp hnamed
    exact ⟨⟨cps, hz, s⟩, takes_singleton_iff.mpr ⟨hm, hcps, hhz, hs⟩,
      ⟨hmembers, hcycles, htimer, hseed⟩⟩
  · rintro ⟨o₁, hfirst, hrest⟩
    constructor
    · exact List.forall_mem_cons.mpr ⟨hfirst.named m List.mem_cons_self, hrest.named⟩
    · rw [Json.valuesOf_cons, take?_append, hfirst.cycles]
      exact hrest.cycles
    · rw [Json.valuesOf_cons, take?_append, hfirst.timer]
      exact hrest.timer
    · rw [Json.valuesOf_cons, take?_append, hfirst.seed]
      exact hrest.seed

theorem giveMember_eq_some_iff {o o' : Overrides} {key : List Char} {v : Json} :
    o.giveMember key v = some o' ↔ o.Takes [(key, v)] o' := by
  rw [takes_singleton_iff]
  simp only [Json.valuesOf_singleton]
  unfold giveMember
  cases Json.unescape? key with
  | none => simp
  | some name =>
      by_cases hc : name = "cycles_per_second".toList
      · subst hc
        simp [giveCycles_eq_some_iff, take?]
      · by_cases ht : name = "timer_hz".toList
        · subst ht
          simp [giveTimer_eq_some_iff, take?]
        · by_cases hs : name = "seed".toList
          · subst hs
            simp [giveSeed_eq_some_iff, take?]
          · obtain ⟨cps, hz, seed⟩ := o
            obtain ⟨cps', hz', seed'⟩ := o'
            simp only [hc, ht, hs, take?, if_false, Option.some.injEq, Overrides.mk.injEq, ne_eq,
              reduceCtorEq, not_false_eq_true, true_and]

/-- **What an object gives**: each setting by the members with its name, whatever stands between
them. -/
theorem giveMembers_eq_some_iff {o o' : Overrides} {members : List (List Char × Json)} :
    o.giveMembers members = some o' ↔ o.Takes members o' := by
  induction members generalizing o with
  | nil =>
      rw [giveMembers, takes_nil_iff, Option.some.injEq]
  | cons m members ih =>
      obtain ⟨key, v⟩ := m
      rw [takes_cons_iff, giveMembers]
      simp only [← giveMember_eq_some_iff, ← ih]
      cases o.giveMember key v <;> simp

theorem GivenBy.takes {o : Overrides} {members : List (List Char × Json)}
    (h : o.GivenBy members) : nothing.Takes members o := by
  constructor
  · exact h.named
  · rw [h.cycles]
    exact take?_toList Json.uint32?_ofNat o.cyclesPerSecond
  · rw [h.timer]
    exact take?_toList Json.uint32?_ofNat o.timerHz
  · rw [h.seed]
    exact take?_toList optionalUInt64?_seedJson o.seed

/-- A known member twice is once too often. -/
theorem giveMembers_of_repeated {name : String}
    (hname : name ∈ ["cycles_per_second", "timer_hz", "seed"])
    {members : List (List Char × Json)} (h : 2 ≤ (valuesOf name members).length) :
    nothing.giveMembers members = none := by
  rw [Option.eq_none_iff_forall_ne_some]
  intro o ho
  obtain ⟨_, hcycles, htimer, hseed⟩ := giveMembers_eq_some_iff.mp ho
  simp only [List.mem_cons, List.not_mem_nil, or_false] at hname
  rcases hname with rfl | rfl | rfl
  · rw [nothing, take?_of_two_le h] at hcycles
    cases hcycles
  · rw [nothing, take?_of_two_le h] at htimer
    cases htimer
  · rw [nothing, take?_of_two_le h] at hseed
    cases hseed

/-- The values that are given, and for the others 480 instructions and 60 ticks in a second and no
seed. -/
def completed (o : Overrides) : Settings :=
  ⟨o.cyclesPerSecond.getD 480, o.timerHz.getD 60, o.seed.getD none⟩

end Overrides

/-! ## What a text gives -/

/-- A timer ticks, and an instruction falls between two ticks. -/
def Acceptable (s : Settings) : Prop :=
  1 ≤ s.timerHz ∧ s.timerHz ≤ s.cyclesPerSecond

instance (s : Settings) : Decidable s.Acceptable :=
  inferInstanceAs (Decidable (_ ∧ _))

theorem validate_eq_ok_iff {s : Settings} : s.validate = .ok () ↔ s.Acceptable := by
  constructor
  · intro h
    obtain ⟨hpos, hle⟩ := rates_of_validate h
    exact ⟨UInt32.le_iff_toNat_le.mpr hpos, UInt32.le_iff_toNat_le.mpr hle⟩
  · rintro ⟨hpos, hle⟩
    have hne : s.timerHz ≠ 0 := by
      intro h0
      rw [h0] at hpos
      exact absurd hpos (by decide)
    rw [validate, if_neg hne, if_neg (UInt32.not_lt.mpr hle)]

theorem exists_validate_eq_error {s : Settings} (h : ¬s.Acceptable) :
    ∃ e, s.validate = .error e := by
  cases he : s.validate with
  | ok u => exact absurd (validate_eq_ok_iff.mp he) h
  | error e => exact ⟨e, rfl⟩

section

variable {v : Json} {o : Overrides} {text : String} (htext : Json.parse? text = some v)
  (hv : Overrides.ofJson? v = some o)
include htext hv

theorem parse_of_accepted (h : o.completed.Acceptable) : parse text = .ok o.completed := by
  have hvalid : (standard.override o).validate = .ok () := validate_eq_ok_iff.mpr h
  simp only [parse, htext, Option.bind_some, hv, hvalid]
  rfl

theorem parse_of_refused {e : SettingsError} (h : o.completed.validate = .error e) :
    parse text = .error (.refused e) := by
  have hrefused : (standard.override o).validate = .error e := h
  simp only [parse, htext, Option.bind_some, hv, hrefused]

end

theorem parse_of_ofJson?_eq_none {v : Json} {text : String} (htext : Json.parse? text = some v)
    (hv : Overrides.ofJson? v = none) : parse text = .error .malformed := by
  simp only [parse, htext, Option.bind_some, hv]

theorem validate_of_parse {text : String} {s : Settings} (h : parse text = .ok s) :
    s.validate = .ok () := by
  unfold parse at h
  split at h
  · cases h
  · split at h
    · cases h
      assumption
    · cases h

/-! ## Settings as they are written -/

theorem toJson_eq (s : Settings) : s.toJson = .object [
    ("cycles_per_second".toList, .ofNat s.cyclesPerSecond.toNat),
    ("timer_hz".toList, .ofNat s.timerHz.toNat),
    ("seed".toList, seedJson s.seed)] := by
  obtain ⟨cps, hz, seed⟩ := s
  cases seed <;> rfl

theorem proper_toJson (s : Settings) : s.toJson.Proper := by
  rw [toJson_eq]
  refine .object ?_ ?_
  · simp only [List.forall_mem_cons, List.not_mem_nil, false_imp_iff, implies_true, and_true]
    refine ⟨?_, ?_, ?_⟩ <;> exact Json.body_of_plain _ (by decide)
  · simp only [List.forall_mem_cons, List.not_mem_nil, false_imp_iff, implies_true, and_true]
    refine ⟨Json.proper_ofNat _, Json.proper_ofNat _, ?_⟩
    cases s.seed with
    | none => exact .null
    | some n => exact Json.proper_ofNat _

/-- Written settings give everything. -/
theorem givenBy_toJson (s : Settings) : ∃ members, s.toJson = .object members ∧
    Overrides.GivenBy ⟨some s.cyclesPerSecond, some s.timerHz, some s.seed⟩ members := by
  refine ⟨_, s.toJson_eq, ?_, rfl, rfl, rfl⟩
  simp only [List.forall_mem_cons, List.not_mem_nil, false_imp_iff, implies_true, and_true]
  decide

/-- Settings come back from every text that spells them. -/
theorem parse_of_spells_toJson {s : Settings} (hs : s.Acceptable) {text : String}
    (h : Json.Spells s.toJson text.toList) : parse text = .ok s := by
  obtain ⟨members, hmembers, hgiven⟩ := s.givenBy_toJson
  rw [hmembers] at h
  exact parse_of_accepted (Json.parse?_of_spells h)
    (Overrides.giveMembers_eq_some_iff.mpr hgiven.takes) hs

/-- **A text of settings means what its members give.** The known members may be given or left out,
stand in any order and among any others, with blanks wherever blanks may stand. Settings are then
accepted just if a timer ticks and an instruction falls between two ticks, and refused if not. A
known member given twice is malformed. So accepted settings come back from every text that spells
them, among these the printed one, and a console can be made of whatever is read. -/
theorem settings_text_faithful :
    (∀ (members : List (List Char × Json)) (o : Overrides) (text : String),
      Json.Spells (.object members) text.toList → o.GivenBy members →
      (o.completed.Acceptable → parse text = .ok o.completed) ∧
      (¬o.completed.Acceptable → ∃ cause, parse text = .error (.refused cause))) ∧
    (∀ name ∈ ["cycles_per_second", "timer_hz", "seed"],
      ∀ (members : List (List Char × Json)) (text : String),
      Json.Spells (.object members) text.toList → 2 ≤ (Json.valuesOf name members).length →
      parse text = .error .malformed) ∧
    (∀ s : Settings, s.Acceptable → parse s.toJson.pretty = .ok s ∧
      ∀ text : String, Json.Spells s.toJson text.toList → parse text = .ok s) ∧
    (∀ (text : String) (s : Settings) (entropy : KeyStream), parse text = .ok s →
      ∃ c, Console.new s entropy = .ok c ∧ c.settings = s) := by
  refine ⟨fun members o text htext hgiven => ?_, fun name hname members text htext htwice => ?_,
    fun s hs => ?_, fun text s entropy h => ?_⟩
  · have hread := Json.parse?_of_spells htext
    have hmembers : Overrides.ofJson? (.object members) = some o :=
      Overrides.giveMembers_eq_some_iff.mpr hgiven.takes
    refine ⟨parse_of_accepted hread hmembers, fun hs => ?_⟩
    obtain ⟨e, he⟩ := exists_validate_eq_error hs
    exact ⟨e, parse_of_refused hread hmembers he⟩
  · exact parse_of_ofJson?_eq_none (Json.parse?_of_spells htext)
      (Overrides.giveMembers_of_repeated hname htwice)
  · exact ⟨parse_of_spells_toJson hs (s.proper_toJson.spells_prettyAt 0),
      fun text => parse_of_spells_toJson hs⟩
  · rw [Console.new, validate_of_parse h]
    exact ⟨_, rfl, rfl⟩

open Json in
/-- A rate left out, a name with an escape in it, and an unknown member that holds containers; then
more ticks than instructions, a seed given twice, and a rate as large as rates can be. -/
theorem settings_text_faithful_nested :
    (parse "\x7b \"x\":[null,\x7b\x7d],\n\"timer_hz\":30, \"\\u0073eed\":7\x7d" =
      .ok ⟨480, 30, some 7⟩) ∧
    (∃ cause, parse "\x7b\"timer_hz\":481\x7d" = .error (.refused cause)) ∧
    parse "\x7b\"seed\":7,\"seed\":7\x7d" = .error .malformed ∧
    parse (toJson ⟨4294967295, 1, none⟩).pretty = .ok ⟨4294967295, 1, none⟩ ∧
    ∃ c, Console.new ⟨4294967295, 1, none⟩ (.ofSeed 7) = .ok c ∧
      c.settings = ⟨4294967295, 1, none⟩ := by
  obtain ⟨hgiven, htwice, hback, hconsole⟩ := settings_text_faithful
  have hempty : Blanks [] := List.forall_mem_nil _
  have hspace : Blanks [' '] := fun c hc => .inl (List.mem_singleton.mp hc)
  have hline : Blanks ['\n'] := fun c hc => .inr (.inr (.inl (List.mem_singleton.mp hc)))
  have hnumber : ∀ n : Nat, Spells (.ofNat n) (Nat.toDigits 10 n) := fun n =>
    .number (numberText_toDigits n)
  have hseed : Body "seed".toList := body_of_plain _ (by decide)
  have htimer : Body "timer_hz".toList := body_of_plain _ (by decide)
  have hbig := hback ⟨4294967295, 1, none⟩ (by decide)
  refine ⟨?_, ?_, ?_, hbig.1, hconsole _ _ _ hbig.1⟩
  · have hkey : Body "\\u0073eed".toList :=
      .unit (.inl (by decide)) (.inl (by decide)) (.inl (by decide)) (.inl (by decide))
        (body_of_plain "eed".toList (by decide))
    have hitems : SpellsItems [.null, .object []] _ := .cons .null (.last (.emptyObject hempty))
    have hmembers := SpellsMembers.cons hspace (body_of_plain "x".toList (by decide)) hempty
      (.array hitems) (.cons hline htimer hempty (hnumber 30)
        (.last hspace hkey hempty (hnumber 7)))
    refine (hgiven _ ⟨none, some 30, some (some 7)⟩ _ (.object hmembers) ⟨?_, ?_, ?_, ?_⟩).1
      (by decide)
    · simp only [List.forall_mem_cons, List.not_mem_nil, false_imp_iff, implies_true, and_true]
      decide +kernel
    all_goals cbv
  · have hmembers := SpellsMembers.last hempty htimer hempty (hnumber 481)
    refine (hgiven _ ⟨none, some 481, none⟩ _ (.object hmembers) ⟨?_, ?_, ?_, ?_⟩).2 (by decide)
    · simp only [List.forall_mem_cons, List.not_mem_nil, false_imp_iff, implies_true, and_true]
      decide
    all_goals cbv
  · have hmembers := SpellsMembers.cons hempty hseed hempty (hnumber 7)
      (.last hempty hseed hempty (hnumber 7))
    exact htwice "seed" (by decide) _ _ (.object hmembers) (by decide)

end Settings
end ChipEight
