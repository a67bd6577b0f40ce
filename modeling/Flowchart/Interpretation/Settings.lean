import Flowchart.Placement.Config
import Flowchart.Container
import Flowchart.Outline.Label

/-!
# Settings of an interpretation

A request may give any of the settings; for the others the standard ones are taken.
-/

namespace Flowchart.Interpretation

structure Settings (α : Type) where
  /-- Where the first node is proposed. -/
  origin : Point α
  horizontalSpacing : α
  verticalSpacing : α
  containerPadding : α
  containerMargin : α
  labelCap : Int
  placement : Placement.Config α
deriving DecidableEq, Repr

/-- The settings that a request gives. -/
structure Options (α : Type) where
  originX : Option α
  originY : Option α
  horizontalSpacing : Option α
  verticalSpacing : Option α
  containerPadding : Option α
  containerMargin : Option α
  labelCap : Option Int
  placement : Option (Placement.Config α)
deriving DecidableEq, Repr

namespace Options

variable {α : Type}

def none : Options α :=
  ⟨.none, .none, .none, .none, .none, .none, .none, .none⟩

/-- The given settings, completed by the standard ones. -/
def settings [Scalar α] (o : Options α) : Settings α where
  origin := ⟨o.originX.getD 300, o.originY.getD 100⟩
  horizontalSpacing := o.horizontalSpacing.getD 250
  verticalSpacing := o.verticalSpacing.getD 160
  containerPadding := o.containerPadding.getD 40
  containerMargin := o.containerMargin.getD Flowchart.containerMargin
  labelCap := o.labelCap.getD Outline.defaultCap
  placement := o.placement.getD .standard

end Options

end Flowchart.Interpretation
