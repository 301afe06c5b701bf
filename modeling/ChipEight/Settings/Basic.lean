import ChipEight.Text

/-!
# Settings

How fast a machine runs and what its random stream starts from. Settings are
made of defaults, of what a file says, and of what a command line says, so
the last two are overrides: each value is given or left alone. Settings are
accepted only if a timer ticks at all and at least one instruction falls
between two ticks.
-/

namespace ChipEight

/-- Rates and seed. -/
structure Settings where
  /-- Instructions in a second. -/
  cyclesPerSecond : UInt32
  /-- Timer ticks, and frames, in a second. -/
  timerHz : UInt32
  /-- Where the random stream starts; without one it starts anywhere. -/
  seed : Option UInt64
deriving DecidableEq

/-- Why settings are refused. -/
inductive SettingsError where
  /-- The timers would never tick. -/
  | timerStopped
  /-- There are fewer instructions than ticks. -/
  | tooSlow (cyclesPerSecond timerHz : UInt32)
deriving DecidableEq

/-- The refusal in words. -/
def SettingsError.message : SettingsError → String
  | timerStopped => "invalid config: timer_hz must be non-zero"
  | tooSlow cps hz =>
    "invalid config: cycles_per_second (" ++ decimal cps.toNat ++
      ") must be at least timer_hz (" ++ decimal hz.toNat ++ ")"

namespace Settings

/-- Eight instructions to a tick, sixty ticks a second, and no seed. -/
def standard : Settings :=
  ⟨480, 60, none⟩

/-- Accept settings that describe a frame. -/
def validate (s : Settings) : Except SettingsError Unit :=
  if s.timerHz = 0 then .error .timerStopped
  else if s.cyclesPerSecond < s.timerHz then .error (.tooSlow s.cyclesPerSecond s.timerHz)
  else .ok ()

/-- Whole instructions between two ticks, and at least one. -/
def cyclesPerTick (s : Settings) : UInt32 :=
  max (s.cyclesPerSecond / max s.timerHz 1) 1

/-- Values that are given, to be put over settings. -/
structure Overrides where
  /-- Instructions in a second, if given. -/
  cyclesPerSecond : Option UInt32
  /-- Timer ticks in a second, if given. -/
  timerHz : Option UInt32
  /-- The seed, if given; a seed may be given as absent. -/
  seed : Option (Option UInt64)
deriving DecidableEq

/-- Nothing is given. -/
def Overrides.nothing : Overrides :=
  ⟨none, none, none⟩

/-- Settings with the values that are given. -/
def override (s : Settings) (o : Overrides) : Settings :=
  { cyclesPerSecond := o.cyclesPerSecond.getD s.cyclesPerSecond
    timerHz := o.timerHz.getD s.timerHz
    seed := o.seed.getD s.seed }

end Settings

end ChipEight
