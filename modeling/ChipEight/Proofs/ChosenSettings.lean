import ChipEight.Proofs.Restart
import ChipEight.Proofs.SettingsText
import ChipEight.Proofs.TracedRuns

/-!
# Which settings a run has

Settings come from three places. Each is taken from the flags if they give it, else from
the settings file if that gives it, and else it has its default (`Timing.merged`).

They are judged twice: what the file makes of the defaults is judged before the flags are
looked at, and what the flags make of that is judged again. So a run can be refused
although the settings that it would have had are acceptable, and the complaint then names
the file. `chooseSettings` has three outcomes, with a lemma for each, and a run does what
they say.
-/

namespace ChipEight

/-! ## Settings files -/

namespace Settings

/-- The file holds a text that gives these values. -/
def FileGives (files : FileReader) (file : String) (given : Overrides) : Prop :=
  ∃ (data : List UInt8) (text : String), files file = .ok data ∧
    String.fromUTF8? (ByteArray.mk data.toArray) = some text ∧
    (Json.parse? text).bind Overrides.ofJson? = some given

/-- A file that holds a text gives what the text gives. -/
theorem fileGives_of_text {files : FileReader} {file text : String} {given : Overrides}
    (hfile : files file = .ok text.toUTF8.data.toList)
    (htext : (Json.parse? text).bind Overrides.ofJson? = some given) :
    FileGives files file given :=
  ⟨_, text, hfile, dif_pos text.isValidUTF8, htext⟩

section

variable {files : FileReader} {file : String} {given : Overrides}
  (hfile : FileGives files file given)
include hfile

theorem load_of_accepted (h : given.completed.Acceptable) :
    load files file = .ok given.completed := by
  obtain ⟨data, text, hdata, htext, hgiven⟩ := hfile
  obtain ⟨v, hv, hgiven⟩ := Option.bind_eq_some_iff.mp hgiven
  simp only [load, hdata, htext, parse_of_accepted hv hgiven h]

theorem load_of_refused {e : SettingsError} (h : given.completed.validate = .error e) :
    load files file = .error (.content (.refused e)) := by
  obtain ⟨data, text, hdata, htext, hgiven⟩ := hfile
  obtain ⟨v, hv, hgiven⟩ := Option.bind_eq_some_iff.mp hgiven
  simp only [load, hdata, htext, parse_of_refused hv hgiven h]

end

end Settings

namespace CommandLine

open Settings (Overrides)

/-! ## The settings of a run -/

/-- What the settings file gives: nothing, if there is none. -/
inductive Timing.Reads (files : FileReader) (t : Timing) : Overrides → Prop where
  | nothing : t.config = none → t.Reads files .nothing
  | file {file : String} {given : Overrides} : t.config = some file →
      Settings.FileGives files file given → t.Reads files given

/-- Each setting as the flags give it, or else the file, or else by default. -/
def Timing.merged (t : Timing) (given : Overrides) : Settings :=
  ⟨t.ips.getD (given.cyclesPerSecond.getD 480), given.timerHz.getD 60,
    t.seed.or (given.seed.getD none)⟩

theorem override_completed (t : Timing) (given : Overrides) :
    given.completed.override t.overrides = t.merged given := by
  obtain ⟨config, seed, ips⟩ := t
  cases seed <;> rfl

section

variable {files : FileReader} {t : Timing} {given : Overrides} (hgiven : t.Reads files given)
include hgiven

theorem baseSettings_of_accepted (h : given.completed.Acceptable) :
    baseSettings files t = .ok given.completed := by
  cases hgiven with
  | nothing hnone =>
      rw [baseSettings, hnone]
      rfl
  | file hsome hfile => simp only [baseSettings, hsome, Settings.load_of_accepted hfile h]

theorem baseSettings_of_refused {e : SettingsError} (h : given.completed.validate = .error e) :
    ∃ file, t.config = some file ∧ baseSettings files t =
      .error ("Failed to load config " ++ file ++ ": " ++ e.message) := by
  cases hgiven with
  | nothing => cases h
  | @file file _ hsome hfile =>
      refine ⟨file, hsome, ?_⟩
      simp only [baseSettings, hsome, Settings.load_of_refused hfile h, SettingsLoadError.message]

/-- What is acceptable in the file and under the flags is chosen. -/
theorem chooseSettings_of_accepted (hfile : given.completed.Acceptable)
    (hmerged : (t.merged given).Acceptable) : chooseSettings files t = .ok (t.merged given) := by
  have hvalid := Settings.validate_eq_ok_iff.mpr hmerged
  simp only [chooseSettings, baseSettings_of_accepted hgiven hfile, override_completed, hvalid]

theorem chooseSettings_of_refused (hfile : given.completed.Acceptable) {e : SettingsError}
    (hmerged : (t.merged given).validate = .error e) :
    chooseSettings files t = .error e.message := by
  simp only [chooseSettings, baseSettings_of_accepted hgiven hfile, override_completed, hmerged]

/-- A file that is refused is refused whatever the flags say. -/
theorem chooseSettings_of_refused_file {e : SettingsError}
    (hfile : given.completed.validate = .error e) :
    ∃ file, t.config = some file ∧ chooseSettings files t =
      .error ("Failed to load config " ++ file ++ ": " ++ e.message) := by
  obtain ⟨file, hconfig, hbase⟩ := baseSettings_of_refused hgiven hfile
  exact ⟨file, hconfig, by simp only [chooseSettings, hbase]⟩

end

/-! ## The run -/

theorem run_of_chooseSettings_error {files : FileReader} {o : RunOptions} {message : String}
    (h : chooseSettings files o.timing = .error message) (entropy : KeyStream) (path : String) :
    run files entropy path o = failure "" message := by
  simp only [run, choose, h]

theorem run_of_chooseImage_error {files : FileReader} {o : RunOptions} {s : Settings}
    {path message : String} (hs : chooseSettings files o.timing = .ok s)
    (h : chooseImage files path = .error message) (entropy : KeyStream) :
    run files entropy path o = failure "" message := by
  simp only [run, choose, hs, h]

/-- A console that is ready to run has the settings that it was made with. -/
theorem settings_of_prepare {s : Settings} {image : List UInt8} {entropy : KeyStream} {c : Console}
    (h : prepare s image entropy = .ok c) : c.settings = s := by
  unfold prepare at h
  split at h
  · cases h
  · rename_i hnew
    obtain ⟨-, rfl⟩ := Console.new_eq_ok hnew
    split at h
    · cases h
    · rename_i hload
      cases h
      obtain ⟨-, memory, rfl⟩ := Console.load_eq_ok hload
      rfl

/-- **Flags are put over the file, and the file over the defaults**, and a run has the settings that
this makes. It is refused for its settings just if these cannot be accepted, or if what the file
makes of the defaults cannot: a file has to be in order by itself. -/
theorem run_settings_layered {files : FileReader} {o : RunOptions} {given : Overrides}
    (hgiven : o.timing.Reads files given) (entropy : KeyStream) (path : String) :
    (given.completed.Acceptable → (o.timing.merged given).Acceptable →
      (∀ message, chooseImage files path = .error message →
        run files entropy path o = failure "" message) ∧
      ∀ image, chooseImage files path = .ok image →
        ∃ c, prepare (o.timing.merged given) image entropy = .ok c ∧
          c.settings = o.timing.merged given ∧
          run files entropy path o =
            conclude o (if o.json then "" else opening path image)
              (if o.tracing then Machine.traceLines (c.steps o.frames) else [])
              (c.headless o.frames).1 (c.headless o.frames).2) ∧
    (¬given.completed.Acceptable → ∃ file cause, o.timing.config = some file ∧
      given.completed.validate = .error cause ∧ run files entropy path o =
        failure "" ("Failed to load config " ++ file ++ ": " ++ cause.message)) ∧
    (given.completed.Acceptable → ¬(o.timing.merged given).Acceptable →
      ∃ cause, (o.timing.merged given).validate = .error cause ∧
        run files entropy path o = failure "" cause.message) := by
  refine ⟨fun hfile hmerged => ?_, fun hfile => ?_, fun hfile hmerged => ?_⟩
  · have hs := chooseSettings_of_accepted hgiven hfile hmerged
    refine ⟨fun message himage => run_of_chooseImage_error hs himage entropy,
      fun image himage => ?_⟩
    have hchoose : choose files o.timing path = .ok (o.timing.merged given, image) := by
      simp only [choose, hs, himage]
    obtain ⟨hvalid, hfits⟩ := valid_of_choose hchoose
    obtain ⟨c, -, hc, -⟩ := exists_prepare hvalid hfits entropy entropy
    exact ⟨c, hc, settings_of_prepare hc, run_of_prepare hchoose hc⟩
  · obtain ⟨cause, hcause⟩ := Settings.exists_validate_eq_error hfile
    obtain ⟨file, hconfig, hs⟩ := chooseSettings_of_refused_file hgiven hcause
    exact ⟨file, cause, hconfig, hcause, run_of_chooseSettings_error hs entropy path⟩
  · obtain ⟨cause, hcause⟩ := Settings.exists_validate_eq_error hmerged
    have hs := chooseSettings_of_refused hgiven hfile hcause
    exact ⟨cause, hcause, run_of_chooseSettings_error hs entropy path⟩

/-- Every source gives something: the file a tick rate and a seed, and the flags another seed and a
rate. Under a lower rate the same file is refused. -/
theorem run_settings_layered_flags :
    let image : List UInt8 := [0x12, 0x00]
    let text : String := "\x7b\"timer_hz\":30,\"seed\":5\x7d"
    let files : FileReader := fun path =>
      if path = "c.json" then .ok text.toUTF8.data.toList else .ok image
    let o : UInt32 → RunOptions := fun ips =>
      ⟨1, false, false, false, ⟨some "c.json", some 9, some ips⟩⟩
    (∀ ips, (o ips).timing.Reads files ⟨none, some 30, some (some 5)⟩) ∧
      (∃ c, prepare ⟨2000, 30, some 9⟩ image (.ofSeed 7) = .ok c ∧
        c.settings = ⟨2000, 30, some 9⟩ ∧
        run files (.ofSeed 7) "a.ch8" (o 2000) =
          conclude (o 2000) (opening "a.ch8" image) [] (c.headless 1).1 (c.headless 1).2) ∧
      run files (.ofSeed 7) "a.ch8" (o 10) =
        failure "" "invalid config: cycles_per_second (10) must be at least timer_hz (30)" := by
  intro image text files o
  have htext : (Json.parse? text).bind Overrides.ofJson? =
      some ⟨none, some 30, some (some 5)⟩ := by decide +kernel
  have hreads : ∀ ips, (o ips).timing.Reads files ⟨none, some 30, some (some 5)⟩ :=
    fun ips => .file rfl (Settings.fileGives_of_text rfl htext)
  refine ⟨hreads, ?_, ?_⟩
  · exact ((run_settings_layered (hreads 2000) (.ofSeed 7) "a.ch8").1 (by decide) (by decide)).2
      image rfl
  · obtain ⟨cause, hcause, hrun⟩ :=
      (run_settings_layered (hreads 10) (.ofSeed 7) "a.ch8").2.2 (by decide) (by decide)
    cases hcause
    rw [hrun]
    decide +kernel

/-- The flags cannot repair a file: one that asks for a thousand ticks, with a rate left to the
flags, is refused although the settings that flags and file make together could be accepted. -/
theorem file_refused_before_flags :
    let text : String := "\x7b\"timer_hz\":1000\x7d"
    let files : FileReader := fun path =>
      if path = "c.json" then .ok text.toUTF8.data.toList else .ok [0x12, 0x00]
    let o : RunOptions := ⟨1, false, false, false, ⟨some "c.json", none, some 2000⟩⟩
    let given : Overrides := ⟨none, some 1000, none⟩
    o.timing.Reads files given ∧ o.timing.merged given = ⟨2000, 1000, none⟩ ∧
      (o.timing.merged given).Acceptable ∧
      run files (.ofSeed 7) "a.ch8" o = failure "" ("Failed to load config c.json: " ++
        "invalid config: cycles_per_second (480) must be at least timer_hz (1000)") := by
  intro text files o given
  have htext : (Json.parse? text).bind Overrides.ofJson? = some given := by decide +kernel
  have hreads : o.timing.Reads files given := .file rfl (Settings.fileGives_of_text rfl htext)
  have hrefused : given.completed.validate = .error (.tooSlow 480 1000) := rfl
  obtain ⟨file, hfile, hs⟩ := chooseSettings_of_refused_file hreads hrefused
  cases hfile
  refine ⟨hreads, rfl, by decide, ?_⟩
  rw [run_of_chooseSettings_error hs]
  decide +kernel

end CommandLine
end ChipEight
