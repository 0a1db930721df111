import FlowCanvas.Settings
import FlowCanvas.Diagram.Document

/-!
Changing settings by a JSON text. A text is read as a whole into a patch, in which every part may be
missing; only then is it applied, and a value that is not allowed rejects all of it. Applying a
patch twice is the same as applying it once.
-/

namespace FlowCanvas

structure ThemePatch (α : Type) where
  fontFamily : Option String
  fontSize : Option α
  stepFill : Option String
  stepBorder : Option String
  toolFill : Option String
  toolBorder : Option String
  groupFill : Option String
  groupBorder : Option String
  routeColor : Option String
  toolEdgeColor : Option String
  textColor : Option String
  background : Option String

structure ToolPatch (α : Type) where
  gap : Option α
  separation : Option α
  fallbackColumns : Option Nat
  fallbackAttempts : Option Nat
  repairAttempts : Option Nat

structure LayoutPatch (α : Type) where
  direction : Option String
  engine : Option Engine
  gridSize : Option α
  stepWidth : Option α
  stepHeight : Option α
  toolWidth : Option α
  toolHeight : Option α
  defaultGroupWidth : Option α
  defaultGroupHeight : Option α
  minGroupWidth : Option α
  minGroupHeight : Option α
  groupPadding : Option α
  nodeSpacing : Option α
  rankSpacing : Option α
  margin : Option α
  orderPasses : Option Nat
  tools : Option (ToolPatch α)

structure Patch (α : Type) where
  theme : Option String
  themeVariables : Option (ThemePatch α)
  layout : Option (LayoutPatch α)

inductive SettingsError
  | malformed
  | unknownDirection (token : String)
  | gridNotPositive

namespace SettingsError

def message? : SettingsError → Option String
  | .malformed => none
  | .unknownDirection token => some ("Unknown layout direction: " ++ token)
  | .gridNotPositive => some "gridSize must be positive"

end SettingsError

section Applying

variable {α : Type} [Scalar α]

def ThemePatch.apply (p : ThemePatch α) (t : Theme α) : Theme α where
  fontFamily := p.fontFamily.getD t.fontFamily
  fontSize := p.fontSize.getD t.fontSize
  stepFill := p.stepFill.getD t.stepFill
  stepBorder := p.stepBorder.getD t.stepBorder
  toolFill := p.toolFill.getD t.toolFill
  toolBorder := p.toolBorder.getD t.toolBorder
  groupFill := p.groupFill.getD t.groupFill
  groupBorder := p.groupBorder.getD t.groupBorder
  routeColor := p.routeColor.getD t.routeColor
  toolEdgeColor := p.toolEdgeColor.getD t.toolEdgeColor
  textColor := p.textColor.getD t.textColor
  background := p.background.getD t.background

def ToolPatch.apply (p : ToolPatch α) (t : ToolSettings α) : ToolSettings α where
  gap := p.gap.getD t.gap
  separation := p.separation.getD t.separation
  fallbackColumns := (p.fallbackColumns.map (max · 1)).getD t.fallbackColumns
  fallbackAttempts := p.fallbackAttempts.getD t.fallbackAttempts
  repairAttempts := p.repairAttempts.getD t.repairAttempts

def checkDirection (direction : Direction) : Option String → Except SettingsError Direction
  | none => .ok direction
  | some token =>
    match Direction.ofToken? token with
    | some d => .ok d
    | none => .error (.unknownDirection token)

def checkGrid (grid : α) : Option α → Except SettingsError α
  | none => .ok grid
  | some x => if x ≤ Scalar.zero then .error .gridNotPositive else .ok x

def LayoutPatch.apply (p : LayoutPatch α) (s : LayoutSettings α) :
    Except SettingsError (LayoutSettings α) :=
  (checkDirection s.direction p.direction).bind fun direction =>
    (checkGrid s.gridSize p.gridSize).map fun gridSize =>
      { direction
        engine := p.engine.getD s.engine
        gridSize
        stepWidth := p.stepWidth.getD s.stepWidth
        stepHeight := p.stepHeight.getD s.stepHeight
        toolWidth := p.toolWidth.getD s.toolWidth
        toolHeight := p.toolHeight.getD s.toolHeight
        defaultGroupWidth := p.defaultGroupWidth.getD s.defaultGroupWidth
        defaultGroupHeight := p.defaultGroupHeight.getD s.defaultGroupHeight
        minGroupWidth := p.minGroupWidth.getD s.minGroupWidth
        minGroupHeight := p.minGroupHeight.getD s.minGroupHeight
        groupPadding := p.groupPadding.getD s.groupPadding
        nodeSpacing := p.nodeSpacing.getD s.nodeSpacing
        rankSpacing := p.rankSpacing.getD s.rankSpacing
        margin := p.margin.getD s.margin
        orderPasses := p.orderPasses.getD s.orderPasses
        tools := (p.tools.map fun t => t.apply s.tools).getD s.tools }

/-- Naming a theme resets the background of the preview, also when the name is unknown. -/
def Settings.useTheme (s : Settings α) : Option String → Settings α
  | none => s
  | some name =>
    let theme := (Theme.named? name).getD s.theme
    { s with theme, preview := { s.preview with background := theme.background } }

/-- A background of the theme is the background of the preview as well. -/
def Settings.useVariables (s : Settings α) : Option (ThemePatch α) → Settings α
  | none => s
  | some p =>
    { s with
      theme := p.apply s.theme
      preview := { s.preview with background := p.background.getD s.preview.background } }

def Patch.apply (p : Patch α) (s : Settings α) : Except SettingsError (Settings α) :=
  let s := (s.useTheme p.theme).useVariables p.themeVariables
  match p.layout with
  | none => .ok s
  | some l => (l.apply s.layout).map fun layout => { s with layout }

end Applying

section Reading

def part? {β : Type} (fields : List (String × Json)) (key : String) (read : Json → Option β) :
    Option (Option β) :=
  optional fields key none (nullable read)

def ThemePatch.keys : List String :=
  ["fontFamily", "fontSize", "stepFill", "stepBorder", "toolFill", "toolBorder", "groupFill",
    "groupBorder", "routeColor", "toolEdgeColor", "textColor", "background"]

def ThemePatch.ofJson? (j : Json) : Option (ThemePatch Float32) := do
  let fs ← j.record? keys
  let fontFamily ← part? fs "fontFamily" Json.text?
  let fontSize ← part? fs "fontSize" Json.single?
  let stepFill ← part? fs "stepFill" Json.text?
  let stepBorder ← part? fs "stepBorder" Json.text?
  let toolFill ← part? fs "toolFill" Json.text?
  let toolBorder ← part? fs "toolBorder" Json.text?
  let groupFill ← part? fs "groupFill" Json.text?
  let groupBorder ← part? fs "groupBorder" Json.text?
  let routeColor ← part? fs "routeColor" Json.text?
  let toolEdgeColor ← part? fs "toolEdgeColor" Json.text?
  let textColor ← part? fs "textColor" Json.text?
  let background ← part? fs "background" Json.text?
  return {
    fontFamily, fontSize, stepFill, stepBorder, toolFill, toolBorder, groupFill, groupBorder,
    routeColor, toolEdgeColor, textColor, background }

def ToolPatch.keys : List String :=
  ["gap", "separation", "fallbackColumns", "fallbackAttempts", "repairAttempts"]

def ToolPatch.ofJson? (j : Json) : Option (ToolPatch Float32) := do
  let fs ← j.record? keys
  let gap ← part? fs "gap" Json.single?
  let separation ← part? fs "separation" Json.single?
  let fallbackColumns ← part? fs "fallbackColumns" Json.count?
  let fallbackAttempts ← part? fs "fallbackAttempts" Json.count?
  let repairAttempts ← part? fs "repairAttempts" Json.count?
  return {
    gap, separation, fallbackColumns, fallbackAttempts, repairAttempts }

/-- An engine by its name, or as an object whose only field has that name and no value. -/
def Engine.ofJson? : Json → Option Engine
  | .text s => Engine.ofName? s
  | .object [(s, .null)] => Engine.ofName? s
  | _ => none

def LayoutPatch.keys : List String :=
  ["direction", "engine", "gridSize", "stepWidth", "stepHeight", "toolWidth", "toolHeight",
    "defaultGroupWidth", "defaultGroupHeight", "minGroupWidth", "minGroupHeight",
    "groupPadding", "nodeSpacing", "rankSpacing", "margin", "orderPasses", "tools"]

def LayoutPatch.ofJson? (j : Json) : Option (LayoutPatch Float32) := do
  let fs ← j.record? keys
  let direction ← part? fs "direction" Json.text?
  let engine ← part? fs "engine" Engine.ofJson?
  let gridSize ← part? fs "gridSize" Json.single?
  let stepWidth ← part? fs "stepWidth" Json.single?
  let stepHeight ← part? fs "stepHeight" Json.single?
  let toolWidth ← part? fs "toolWidth" Json.single?
  let toolHeight ← part? fs "toolHeight" Json.single?
  let defaultGroupWidth ← part? fs "defaultGroupWidth" Json.single?
  let defaultGroupHeight ← part? fs "defaultGroupHeight" Json.single?
  let minGroupWidth ← part? fs "minGroupWidth" Json.single?
  let minGroupHeight ← part? fs "minGroupHeight" Json.single?
  let groupPadding ← part? fs "groupPadding" Json.single?
  let nodeSpacing ← part? fs "nodeSpacing" Json.single?
  let rankSpacing ← part? fs "rankSpacing" Json.single?
  let margin ← part? fs "margin" Json.single?
  let orderPasses ← part? fs "orderPasses" Json.count?
  let tools ← part? fs "tools" ToolPatch.ofJson?
  return {
    direction, engine, gridSize, stepWidth, stepHeight, toolWidth, toolHeight,
    defaultGroupWidth, defaultGroupHeight, minGroupWidth, minGroupHeight, groupPadding,
    nodeSpacing, rankSpacing, margin, orderPasses, tools }

def Patch.keys : List String := ["theme", "themeVariables", "layout"]

def Patch.ofJson? (j : Json) : Option (Patch Float32) := do
  let fs ← j.record? keys
  let theme ← part? fs "theme" Json.text?
  let themeVariables ← part? fs "themeVariables" ThemePatch.ofJson?
  let layout ← part? fs "layout" LayoutPatch.ofJson?
  return { theme, themeVariables, layout }

def Patch.read? (text : String) : Option (Patch Float32) :=
  match Json.Strict.value? text.toList with
  | some (j, []) => Patch.ofJson? j
  | _ => none

def Settings.merge (s : Settings Float32) (text : String) :
    Except SettingsError (Settings Float32) :=
  match Patch.read? text with
  | some p => p.apply s
  | none => .error .malformed

end Reading

section Writing

def ofCount (n : Nat) : Json := .number (.integer n)

def ToolSettings.toJson (t : ToolSettings Float32) : Json :=
  .object [
    ("gap", ofSingle t.gap),
    ("separation", ofSingle t.separation),
    ("fallback_columns", ofCount t.fallbackColumns),
    ("fallback_attempts", ofCount t.fallbackAttempts),
    ("repair_attempts", ofCount t.repairAttempts)]

def LayoutSettings.toJson (s : LayoutSettings Float32) : Json :=
  .object [
    ("direction", .text s.direction.token),
    ("engine", .text s.engine.name),
    ("grid_size", ofSingle s.gridSize),
    ("step_width", ofSingle s.stepWidth),
    ("step_height", ofSingle s.stepHeight),
    ("tool_width", ofSingle s.toolWidth),
    ("tool_height", ofSingle s.toolHeight),
    ("default_group_width", ofSingle s.defaultGroupWidth),
    ("default_group_height", ofSingle s.defaultGroupHeight),
    ("min_group_width", ofSingle s.minGroupWidth),
    ("min_group_height", ofSingle s.minGroupHeight),
    ("group_padding", ofSingle s.groupPadding),
    ("node_spacing", ofSingle s.nodeSpacing),
    ("rank_spacing", ofSingle s.rankSpacing),
    ("margin", ofSingle s.margin),
    ("tools", s.tools.toJson),
    ("order_passes", ofCount s.orderPasses)]

def Theme.toJson (t : Theme Float32) : Json :=
  .object [
    ("font_family", .text t.fontFamily),
    ("font_size", ofSingle t.fontSize),
    ("step_fill", .text t.stepFill),
    ("step_border", .text t.stepBorder),
    ("tool_fill", .text t.toolFill),
    ("tool_border", .text t.toolBorder),
    ("group_fill", .text t.groupFill),
    ("group_border", .text t.groupBorder),
    ("route_color", .text t.routeColor),
    ("tool_edge_color", .text t.toolEdgeColor),
    ("text_color", .text t.textColor),
    ("background", .text t.background)]

def PreviewSettings.toJson (p : PreviewSettings Float32) : Json :=
  .object [
    ("width", ofSingle p.width),
    ("height", ofSingle p.height),
    ("padding", ofSingle p.padding),
    ("background", .text p.background)]

end Writing

end FlowCanvas
