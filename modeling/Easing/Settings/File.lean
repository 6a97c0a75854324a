/-
**Settings read from a file.**

Every setting that the file does not give has its default; names that are no settings are passed
over. The domain must be a positive number.
-/
import Easing.Settings
import Easing.Toml.Document
import Easing.Scalar.Binary64
import Easing.Decimal.Layout

namespace Easing

/-- Why a text holds no settings. -/
inductive SettingsError where
  /-- The text, or a value in it, is not of the form it must have. -/
  | unreadable
  | badDomain (domain : Float)

namespace Settings

/-- The item under a name. -/
def lookup? (entries : Toml.Entries) (name : String) : Option Toml.Item :=
  (entries.find? fun entry => entry.1 == name).map (·.2)

/-- Reads the item under a name, or takes the default when there is none. -/
def valueOr {β : Type} (entries : Toml.Entries) (name : String)
    (read : Toml.Item → Option β) (default : β) : Option β :=
  match lookup? entries name with
  | some item => read item
  | none => some default

/-- Reads a number. -/
def number? : Toml.Item → Option Float
  | .integer n => some (Float.ofInt n)
  | .float x => some x
  | _ => none

/-- Reads a number that is not negative, below a bound. -/
def count? (bound : Nat) : Toml.Item → Option Nat
  | .integer n => if 0 ≤ n ∧ n < bound then some n.toNat else none
  | _ => none

/-- Reads a truth value. -/
def boolean? : Toml.Item → Option Bool
  | .boolean b => some b
  | _ => none

/-- The bound of thirty-two bits. -/
def bound32 : Nat := Nat.pow 2 32

/-- The bound of sixty-four bits. -/
def bound64 : Nat := Nat.pow 2 64

/-- Reads the options of the compile from named entries. -/
def optionsOfEntries (entries : Toml.Entries) : Option CompileOptions := do
  let base := CompileOptions.default
  let useSampling ← valueOr entries "use_sampling" boolean? base.useSampling
  let emitTypedSource ← valueOr entries "emit_typed_source" boolean? base.emitTypedSource
  let precision ← valueOr entries "precision" (count? bound64) base.precision
  return { useSampling, emitTypedSource, precision }

/-- The names of the options in order. -/
def optionNames : List String := ["use_sampling", "emit_typed_source", "precision"]

/-- Reads the options: a table, or an array of them in order. A date has none of them. -/
def options? : Toml.Item → Option CompileOptions
  | .table _ _ entries => optionsOfEntries entries
  | .array items => optionsOfEntries (optionNames.zip items)
  | .tables elements =>
    optionsOfEntries (optionNames.zip (elements.map (Toml.Item.table false .explicit)))
  | .moment => some CompileOptions.default
  | _ => none

/-- Reads all settings. -/
def ofEntries? (entries : Toml.Entries) : Option (Settings Float) := do
  let base : Settings Float := default
  let domain ← valueOr entries "domain" number? base.domain
  let hitTolerance ← valueOr entries "hit_tolerance" number? base.hitTolerance
  let smoothingRatio ← valueOr entries "smoothing_handle_ratio" number? base.smoothingRatio
  let snapCells ← valueOr entries "snap_cells" (count? bound32) base.snapCells
  let coarseCells ← valueOr entries "coarse_cells" (count? bound32) base.coarseCells
  let clickDebounce ← valueOr entries "click_debounce_ms" (count? bound64) base.clickDebounce
  let clickSlop ← valueOr entries "click_slop" number? base.clickSlop
  let compile ← valueOr entries "compile" options? base.compile
  return { domain, hitTolerance, smoothingRatio, snapCells, coarseCells, clickDebounce, clickSlop,
           compile }

/-- The settings in a text. -/
def ofText (text : String) : Except SettingsError (Settings Float) :=
  match (Toml.parse? text).bind ofEntries? with
  | none => .error .unreadable
  | some settings =>
    if Scalar.isFinite settings.domain && 0 < settings.domain then .ok settings
    else .error (.badDomain settings.domain)

end Settings

end Easing
