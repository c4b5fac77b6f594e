import TouchGesture.Gesture.Run

/-! A rig together with settings that pace its gestures. -/

namespace TouchGesture

structure Engine (σ : Type) where
  rig : Rig σ
  settings : Settings := {}

namespace Engine

variable {σ : Type} (e : Engine σ)

def pinch (center vectorStart vectorEnd : Position) : Run σ Unit :=
  e.rig.pinch (Pinch.ofSettings e.settings center vectorStart vectorEnd)

def followPaths (starts ends : List Position) : Run σ Unit :=
  e.rig.followPaths ⟨starts, ends, e.settings.steps, e.settings.stepDelay⟩

def drag (start target : Position) : Run σ Unit := do
  e.rig.note (.drag start target)
  e.rig.followPaths ⟨[start], [target], e.settings.dragSteps, e.settings.dragStepDelay⟩

def tap (point : Position) : Run σ Unit := e.rig.tap point e.settings.tapHold

end Engine

end TouchGesture
