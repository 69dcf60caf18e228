import BarBridge.Artifact
import BarBridge.Module.Members
import BarBridge.Widget.Basic

/-!
# Widgets as documents

Each widget is an object in which what is not set is left out, rather than written as false or
empty. All widgets together form one document, ready to be copied into the settings of the shell;
each also has a file of its own, named for its module. Modules whose conversion lost something are
listed in a document of warnings, which is written only where there is one.
-/

namespace BarBridge

namespace Widget

/-- A member that is written only where it holds. -/
def flag (key : String) (b : Bool) : List (String × Json) :=
  if b then [(key, .bool true)] else []

/-- A member that is written only where there is a value. -/
def optional {α : Type} (key : String) (f : α → Json) (v : Option α) : List (String × Json) :=
  (v.map fun a ↦ (key, f a)).toList

def ofUInt64 (n : UInt64) : Json :=
  .number (.int n.toNat)

def ofUInt32 (n : UInt32) : Json :=
  .number (.int n.toNat)

/-- The limits of the text as an object. -/
def ofLimit (l : TextLimit) : Json :=
  .object [("horizontal", ofUInt32 l.horizontal), ("vertical", ofUInt32 l.vertical)]

/-- Whether an action refreshes the text. -/
def updates (a : Option Action) : Bool :=
  (a.map (·.updateText)).getD false

/-- The members for a click. -/
def click (execKey updateKey : String) (a : Option Action) : List (String × Json) :=
  optional execKey (fun a ↦ .string a.exec) a ++ flag updateKey (updates a)

/-- The members for the wheel. Both directions always have commands of their own. -/
def wheel (up down : Option Action) : List (String × Json) :=
  optional "wheelUpExec" (fun a ↦ .string a.exec) up ++
    optional "wheelDownExec" (fun a ↦ .string a.exec) down ++
    (if up.isSome || down.isSome then [("wheelMode", .string "separate")] else []) ++
    flag "wheelUpUpdateText" (updates up) ++ flag "wheelDownUpdateText" (updates down)

/-- A widget as an object. -/
def toJson (w : Widget) : Json :=
  .object <|
    [("type", .string "CustomButton"), ("textCommand", .string w.textCommand)] ++
    flag "textStream" w.textStream ++
    optional "textIntervalMs" ofUInt64 w.textIntervalMs ++
    flag "parseJson" w.parseJson ++
    click "leftClickExec" "leftClickUpdateText" w.leftClick ++
    click "rightClickExec" "rightClickUpdateText" w.rightClick ++
    click "middleClickExec" "middleClickUpdateText" w.middleClick ++
    wheel w.wheelUp w.wheelDown ++
    optional "maxTextLength" ofLimit w.maxText

end Widget

/-- A module as a widget. -/
structure ConvertedWidget where
  name : String
  widget : Widget
  warnings : List Warning
  deriving DecidableEq, Repr

namespace ConvertedWidget

def ofModule (options : Options) (m : CustomModule) : ConvertedWidget :=
  let command := Command.ofModule m
  ⟨m.name, Widget.ofModule m command, Widget.warnings m command options.defaultInterval⟩

/-- The document of all widgets. -/
def document (ws : List ConvertedWidget) : Json :=
  .object [
    ("_comment", .string "Add these widgets to your Noctalia bar configuration"),
    ("_instructions", .array [
      .string "Copy the widgets array entries to your settings.json",
      .string "Add them to bar.widgets.left, bar.widgets.center, or bar.widgets.right"]),
    ("widgets", .array (ws.map fun w ↦ w.widget.toJson))]

/-- The widgets whose conversion lost something. -/
def withWarnings (ws : List ConvertedWidget) : List ConvertedWidget :=
  ws.filter fun w ↦ !w.warnings.isEmpty

/-- The document of warnings, one member for each name. -/
def warningsDocument (ws : List ConvertedWidget) : Json :=
  .object <| (withWarnings ws).foldl
    (fun members w ↦ Json.put w.name (.array (w.warnings.map fun x ↦ .string x.message)) members) []

/-- The file of one widget. -/
def file (w : ConvertedWidget) : Artifact :=
  Artifact.json ("widgets/" ++ fileStem w.name ++ ".json") w.widget.toJson

/-- The files of all widgets. -/
def files (ws : List ConvertedWidget) : List Artifact :=
  Artifact.json "custom_widgets.json" (document ws) :: ws.map file ++
    if (withWarnings ws).isEmpty then []
    else [Artifact.json "widget_warnings.json" (warningsDocument ws)]

end ConvertedWidget

/-- The modules of a configuration as widgets, in order. -/
def convertWidgets (options : Options) (modules : List CustomModule) : List ConvertedWidget :=
  modules.map (ConvertedWidget.ofModule options)

end BarBridge
