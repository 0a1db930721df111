import FlowCanvas.Diagram

/-!
Settings: the constants of the arrangement, the theme of the preview and its canvas.
-/

namespace FlowCanvas

variable {α : Type} [Scalar α]

/-- The engine that lays out the elements in no group. The pass of `dagre` is not part of it. -/
inductive Engine
  | layered
  | dagre
  deriving DecidableEq

structure ToolSettings (α : Type) where
  gap : α
  separation : α
  fallbackColumns : Nat
  fallbackAttempts : Nat
  repairAttempts : Nat

structure LayoutSettings (α : Type) where
  direction : Direction
  engine : Engine
  gridSize : α
  stepWidth : α
  stepHeight : α
  toolWidth : α
  toolHeight : α
  defaultGroupWidth : α
  defaultGroupHeight : α
  minGroupWidth : α
  minGroupHeight : α
  groupPadding : α
  nodeSpacing : α
  rankSpacing : α
  margin : α
  tools : ToolSettings α
  orderPasses : Nat

structure Theme (α : Type) where
  fontFamily : String
  fontSize : α
  stepFill : String
  stepBorder : String
  toolFill : String
  toolBorder : String
  groupFill : String
  groupBorder : String
  routeColor : String
  toolEdgeColor : String
  textColor : String
  background : String

structure PreviewSettings (α : Type) where
  width : α
  height : α
  padding : α
  background : String

structure Settings (α : Type) where
  theme : Theme α
  layout : LayoutSettings α
  preview : PreviewSettings α

namespace Engine

def ofName? : String → Option Engine
  | "dagre" => some .dagre
  | "layered" => some .layered
  | _ => none

def name : Engine → String
  | .dagre => "dagre"
  | .layered => "layered"

theorem ofName?_name (e : Engine) : ofName? e.name = some e := by
  cases e <;> simp [ofName?, name]

end Engine

namespace Theme

def classic : Theme α where
  fontFamily := "\"trebuchet ms\", verdana, arial, sans-serif"
  fontSize := Scalar.ofNat 14
  stepFill := "#ECECFF"
  stepBorder := "#9370DB"
  toolFill := "#FFFFDE"
  toolBorder := "#AAAA33"
  groupFill := "#F4F4F4"
  groupBorder := "#999999"
  routeColor := "#333333"
  toolEdgeColor := "#AAAA33"
  textColor := "#333333"
  background := "#FFFFFF"

def modern : Theme α where
  fontFamily := "Inter, Segoe UI, system-ui, -apple-system, sans-serif"
  fontSize := Scalar.ofNat 13
  stepFill := "#F8FAFF"
  stepBorder := "#C7D2E5"
  toolFill := "#FFF8EC"
  toolBorder := "#E5C07B"
  groupFill := "#F7FAFF"
  groupBorder := "#D7E0F0"
  routeColor := "#7A8AA6"
  toolEdgeColor := "#D19A66"
  textColor := "#1C2430"
  background := "#FFFFFF"

def named? : String → Option (Theme α)
  | "classic" => some classic
  | "modern" => some modern
  | "default" => some modern
  | _ => none

end Theme

def ToolSettings.standard : ToolSettings α where
  gap := Scalar.ofNat 60
  separation := Scalar.ofNat 20
  fallbackColumns := 3
  fallbackAttempts := 12
  repairAttempts := 8

namespace LayoutSettings

def standard : LayoutSettings α where
  direction := .topDown
  engine := .layered
  gridSize := Scalar.ofNat 20
  stepWidth := Scalar.ofNat 240
  stepHeight := Scalar.ofNat 100
  toolWidth := Scalar.ofNat 180
  toolHeight := Scalar.ofNat 60
  defaultGroupWidth := Scalar.ofNat 400
  defaultGroupHeight := Scalar.ofNat 300
  minGroupWidth := Scalar.ofNat 300
  minGroupHeight := Scalar.ofNat 200
  groupPadding := Scalar.ofNat 40
  nodeSpacing := Scalar.ofNat 80
  rankSpacing := Scalar.ofNat 100
  margin := Scalar.ofNat 20
  tools := ToolSettings.standard
  orderPasses := 4

def toolSize (s : LayoutSettings α) : Size α := ⟨s.toolWidth, s.toolHeight⟩

def footprint (s : LayoutSettings α) (n : Node α) : Size α :=
  match n.kind with
  | .tool => s.toolSize
  | .group =>
    ⟨Scalar.larger (n.style.width?.getD s.defaultGroupWidth) s.minGroupWidth,
      Scalar.larger (n.style.height?.getD s.defaultGroupHeight) s.minGroupHeight⟩
  | _ => ⟨s.stepWidth, s.stepHeight⟩

end LayoutSettings

def PreviewSettings.standard : PreviewSettings α where
  width := Scalar.ofNat 1200
  height := Scalar.ofNat 800
  padding := Scalar.ofNat 40
  background := "#FFFFFF"

def Settings.standard : Settings α where
  theme := Theme.modern
  layout := LayoutSettings.standard
  preview := { PreviewSettings.standard with background := (Theme.modern : Theme α).background }

theorem Settings.standard_background :
    (standard : Settings α).preview.background = (standard : Settings α).theme.background := rfl

end FlowCanvas
