/-
**The settings of an editor.**

Distances are fractions of the domain, so that the same settings fit a domain of any size.
-/
import Easing.Compiled

namespace Easing

/-- What can be changed about an editor. -/
structure Settings (α : Type) where
  /-- The width and height of the square that is edited. -/
  domain : α
  /-- How near a hit is, as a fraction of the domain. -/
  hitTolerance : α
  /-- The length of an endpoint's handle when it is smoothed, as a fraction of the domain. -/
  smoothingRatio : α
  /-- The cells per side of the grid that points snap to. -/
  snapCells : Nat
  /-- The cells per side of the grid that is shown otherwise. -/
  coarseCells : Nat
  /-- The time within which a press and a release make a click. -/
  clickDebounce : Nat
  /-- How near the release of a click is, as a fraction of the domain. -/
  clickSlop : α
  compile : CompileOptions

namespace Settings

variable {α : Type} [Scalar α]

/-- The settings where nothing was changed. -/
def default : Settings α where
  domain := 1
  hitTolerance := 0.02
  smoothingRatio := 0.1
  snapCells := 16
  coarseCells := 4
  clickDebounce := 300
  clickSlop := 0.006
  compile := CompileOptions.default

/-- How near a hit is. -/
def hitRadius (settings : Settings α) : α := settings.hitTolerance * settings.domain

/-- How near the release of a click is. -/
def clickRadius (settings : Settings α) : α := settings.clickSlop * settings.domain

end Settings

end Easing
