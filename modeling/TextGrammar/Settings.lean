import TextGrammar.Decimal.Layout

/-! # Settings of a grammar -/

namespace TextGrammar

/-- How a grammar expands its rules. -/
structure Settings where
  /-- The ceiling on nested expansions within one call. -/
  maxDepth : Nat := 64
  /-- The falloff of every rule set the grammar creates. -/
  falloff : Float := 1
  /-- Whether escape markers are resolved at the end of an expansion. -/
  resolveEscapes : Bool := true
deriving Inhabited

/-- What is wrong with settings. -/
inductive SettingsFault
  | noDepth
  | unusableFalloff (falloff : Float)

/-- Floats in messages are written in full, without a power of ten. -/
def messageLayout : Decimal.Layout :=
  { inPlace := none, wholeMark := "" }

/-- The wording of a fault. -/
def SettingsFault.message : SettingsFault → String
  | .noDepth => "invalid configuration: max_depth must be at least 1"
  | .unusableFalloff falloff =>
    "invalid configuration: falloff must be a finite, non-negative number, got " ++
      messageLayout.renderFloat falloff

/-- The first fault of settings. There must be room for one expansion, and the falloff must be
finite and not negative; minus zero will do. -/
def Settings.fault? (settings : Settings) : Option SettingsFault :=
  if settings.maxDepth = 0 then some .noDepth
  else if !settings.falloff.isFinite || settings.falloff < 0 then
    some (.unusableFalloff settings.falloff)
  else none

/-- Floats in a description have a decimal point, or a power of ten when they are very large or
very small. -/
def descriptionLayout : Decimal.Layout :=
  { inPlace := some (-4, 15), wholeMark := ".0" }

/-- The settings in words, for a reader who debugs a grammar. -/
def Settings.describe (settings : Settings) : String :=
  "GrammarConfig \x7b max_depth: " ++ toString settings.maxDepth ++
  ", falloff: " ++ descriptionLayout.renderFloat settings.falloff ++
  ", resolve_escapes: " ++ toString settings.resolveEscapes ++ " \x7d"

end TextGrammar
