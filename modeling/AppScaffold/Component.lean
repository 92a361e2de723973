import AppScaffold.Text.AsciiCase
import AppScaffold.Text.Blank

/-!
# Variants of components

A component wraps one element of the user interface. Some variants have a slot for further elements
inside; the others are closed.
-/

namespace AppScaffold

/-- The element that a component wraps. -/
inductive Variant where
  /-- A native button. -/
  | button
  /-- A text that can be pressed. -/
  | touchableOpacity
  /-- A plain container. -/
  | view
  /-- A text. -/
  | text
  /-- A container that scrolls. -/
  | scrollView
  /-- An overlay. -/
  | modal
deriving DecidableEq, Repr

/-- The rules that the style sheet of a component has. -/
inductive Styling where
  /-- One rule for a button. -/
  | button
  /-- One rule for a container. -/
  | container
  /-- A rule for a container and one for the text in it. -/
  | containerText
  /-- One rule for a text. -/
  | text
  /-- A rule for an overlay and one for its container. -/
  | modal
deriving DecidableEq, Repr

namespace Variant

/-- All variants, in the order of the menu. -/
def all : List Variant := [button, touchableOpacity, view, text, scrollView, modal]

/-- The name of the wrapped element. -/
def name : Variant → String
  | button => "Button"
  | touchableOpacity => "TouchableOpacity"
  | view => "View"
  | text => "Text"
  | scrollView => "ScrollView"
  | modal => "Modal"

/-- The name of the skeleton of the component. -/
def skeletonName : Variant → String
  | button => "component.button"
  | touchableOpacity => "component.touchable"
  | view => "component.view"
  | text => "component.text"
  | scrollView => "component.scroll_view"
  | modal => "component.modal"

/-- The style sheet that goes with the component. -/
def styling : Variant → Styling
  | button => .button
  | touchableOpacity => .containerText
  | view | scrollView => .container
  | text => .text
  | modal => .modal

/-- The variant has a slot for further elements. -/
def hasSlot : Variant → Bool
  | button | touchableOpacity => false
  | view | text | scrollView | modal => true

/-- The blanks before the line of the slot. -/
def slotIndent : Variant → String
  | modal => "                "
  | _ => "            "

/-- The variant with a name, blanks around it and the case of its letters being free. -/
def ofText? (s : String) : Option Variant :=
  all.find? fun v => Text.sameUpToCase v.name (Text.trim s)

end Variant

/-- The name of the skeleton of the style sheet. -/
def Styling.skeletonName : Styling → String
  | button => "style.button"
  | container => "style.container"
  | containerText => "style.container_text"
  | text => "style.text"
  | modal => "style.modal"

end AppScaffold
