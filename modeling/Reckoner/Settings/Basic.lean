/-
Settings.

There are eight settings.  A value for one of them is checked before it is taken, and a value
that is refused changes nothing.  The default categories are kept by display name, each from
its own group.
-/
import Reckoner.Decimal.Reading
import Reckoner.Json.Printer
import Reckoner.Settings.Error
import Reckoner.Units.Category

namespace Reckoner

/-- The look of the application. -/
inductive Appearance where
  | system
  | light
  | dark
  deriving DecidableEq, Repr

/-- A colour theme. -/
inductive Theme where
  | blue
  | darkBlue
  | green
  deriving DecidableEq, Repr

/-- The page that is shown first. -/
inductive StartPage where
  | home
  | converter
  | calculator
  | misc
  | settings
  | about
  deriving DecidableEq, Repr

/-! ### Names of choices -/

namespace Appearance

/-- All looks. -/
def all : List Appearance := [system, light, dark]

/-- The name of a look. -/
def name : Appearance → String
  | system => "System"
  | light => "Light"
  | dark => "Dark"

end Appearance

namespace Theme

/-- All themes. -/
def all : List Theme := [blue, darkBlue, green]

/-- The name of a theme. -/
def name : Theme → String
  | blue => "blue"
  | darkBlue => "dark-blue"
  | green => "green"

end Theme

namespace StartPage

/-- All pages. -/
def all : List StartPage := [home, converter, calculator, misc, settings, about]

/-- The name of a page. -/
def name : StartPage → String
  | home => "Home"
  | converter => "Converter"
  | calculator => "Calculator"
  | misc => "Misc"
  | settings => "Settings"
  | about => "About"

end StartPage

/-! ### The settings -/

/-- The preferences of a user. -/
structure Settings where
  appearance : Appearance
  scaling : Double
  theme : Theme
  startPage : StartPage
  enterToConvert : Bool
  rememberLastCategory : Bool
  /-- The display name of a category of the main group. -/
  defaultCategoryMain : String
  /-- The display name of a category of the other group. -/
  defaultCategoryMisc : String
  deriving DecidableEq

/-- The name of a setting. -/
inductive SettingKey where
  | appearance
  | scaling
  | theme
  | startPage
  | enterToConvert
  | rememberLastCategory
  | defaultCategoryMain
  | defaultCategoryMisc
  deriving DecidableEq, Repr

namespace SettingKey

/-- All keys, in the order in which they are stored. -/
def all : List SettingKey :=
  [appearance, scaling, theme, startPage, enterToConvert, rememberLastCategory,
    defaultCategoryMain, defaultCategoryMisc]

/-- A key as it is written. -/
def name : SettingKey → String
  | appearance => "appearance"
  | scaling => "scaling"
  | theme => "theme"
  | startPage => "start_page"
  | enterToConvert => "enter_to_convert"
  | rememberLastCategory => "remember_last_category"
  | defaultCategoryMain => "default_category_main"
  | defaultCategoryMisc => "default_category_misc"

/-- The key that is written so. -/
def ofName? (name : String) : Option SettingKey := all.find? (·.name == name)

end SettingKey

namespace Settings

/-- The settings of a new user. -/
def initial : Settings where
  appearance := .system
  scaling := 1.0
  theme := .blue
  startPage := .home
  enterToConvert := true
  rememberLastCategory := true
  defaultCategoryMain := Category.length.name
  defaultCategoryMisc := Category.angle.name

/-! ### Reading single values -/

/-- The sole member of an object. -/
def soleMember? (members : List (String × Json)) : Option (String × Json) :=
  match members.getLast? with
  | some m => if members.all (·.1 == m.1) then some m else none
  | none => none

/-- The name of a choice: a text, or an object with the name as its sole member and null in it. -/
def choiceName? : Json → Option String
  | .text s => some s
  | .object members =>
    match soleMember? members with
    | some (name, .null) => some name
    | _ => none
  | _ => none

/-- The choice that a value names. -/
def choice? {α : Type} (all : List α) (name : α → String) (value : Json) : Option α := do
  let chosen ← choiceName? value
  all.find? (name · == chosen)

/-- A scaling: a number, or a text that stands for one, from a half to two. -/
def scaling? (value : Json) : Option Double := do
  let v ← match value with
    | .text s => Double.ofText? (Text.trimChars s.toList)
    | .number n => some n.toDouble
    | _ => none
  if (0.5 : Double) ≤ v ∧ v ≤ 2.0 then some v else none

/-- A truth value. -/
def flag? : Json → Option Bool
  | .bool b => some b
  | _ => none

/-- The display name of the category of a group that a value names. -/
def categoryName? (group : CategoryGroup) : Json → Option String
  | .text s => ((Category.ofName? s).filter (·.group == group)).map Category.name
  | _ => none

/-! ### Changing settings -/

/-- The settings with one of them replaced, if the value is fit for it. -/
def replace? (s : Settings) (key : SettingKey) (value : Json) : Option Settings :=
  match key with
  | .appearance =>
    (choice? Appearance.all Appearance.name value).map fun v => { s with appearance := v }
  | .scaling => (scaling? value).map fun v => { s with scaling := v }
  | .theme => (choice? Theme.all Theme.name value).map fun v => { s with theme := v }
  | .startPage =>
    (choice? StartPage.all StartPage.name value).map fun v => { s with startPage := v }
  | .enterToConvert => (flag? value).map fun v => { s with enterToConvert := v }
  | .rememberLastCategory => (flag? value).map fun v => { s with rememberLastCategory := v }
  | .defaultCategoryMain =>
    (categoryName? .main value).map fun v => { s with defaultCategoryMain := v }
  | .defaultCategoryMisc =>
    (categoryName? .misc value).map fun v => { s with defaultCategoryMisc := v }

/-- The truth value that a text stands for. -/
def flagOfText? (text : String) : Option Bool :=
  let word := Text.trim text
  if word = "true" then some true else if word = "false" then some false else none

/-- What a text stands for as the value of a setting; a number that is not finite stands for
nothing. -/
def valueOfText? (key : SettingKey) (text : String) : Option Json :=
  match key with
  | .scaling =>
    (Double.ofText? (Text.trimChars text.toList)).map fun v =>
      if v.isFinite then .number (.float v) else .null
  | .enterToConvert | .rememberLastCategory => (flagOfText? text).map .bool
  | _ => some (.text (Text.trim text))

/-- The settings with one of them set to what a text stands for. -/
def set (s : Settings) (key text : String) : Except SettingsError Settings :=
  match SettingKey.ofName? key with
  | none => .error (.unknownKey key)
  | some k =>
    match valueOfText? k text with
    | none => .error (.invalidValue key text)
    | some value =>
      match s.replace? k value with
      | some changed => .ok changed
      | none => .error (.invalidValue key value.print)

/-! ### Default categories -/

/-- The default category of a group. -/
def defaultCategory (s : Settings) : CategoryGroup → Category
  | .main => (Category.ofName? s.defaultCategoryMain).getD .length
  | .misc => (Category.ofName? s.defaultCategoryMisc).getD .angle

/-- The stored name of the default category of a group. -/
def defaultName (s : Settings) : CategoryGroup → String
  | .main => s.defaultCategoryMain
  | .misc => s.defaultCategoryMisc

/-- The settings with another stored name for the default category of a group. -/
def withDefaultName (s : Settings) (group : CategoryGroup) (name : String) : Settings :=
  match group with
  | .main => { s with defaultCategoryMain := name }
  | .misc => { s with defaultCategoryMisc := name }

/-- The settings with a category remembered as the default of its group; nothing if that changes
nothing. -/
def remember? (s : Settings) (c : Category) : Option Settings :=
  if s.rememberLastCategory && s.defaultName c.group != c.name then
    some (s.withDefaultName c.group c.name)
  else none

/-! ### The stored form -/

/-- The value of a setting as it is stored. -/
def value (s : Settings) : SettingKey → Json
  | .appearance => .text s.appearance.name
  | .scaling => .number (.float s.scaling)
  | .theme => .text s.theme.name
  | .startPage => .text s.startPage.name
  | .enterToConvert => .bool s.enterToConvert
  | .rememberLastCategory => .bool s.rememberLastCategory
  | .defaultCategoryMain => .text s.defaultCategoryMain
  | .defaultCategoryMisc => .text s.defaultCategoryMisc

/-- The members of the stored object. -/
def members (s : Settings) : List (String × Json) :=
  SettingKey.all.map fun k => (k.name, s.value k)

/-- The stored text. -/
def print (s : Settings) : String := Json.printLines s.members

/-- The settings with one of them taken from a stored object, if there is a fit value for it. -/
def take (members : List (String × Json)) (s : Settings) (key : SettingKey) : Settings :=
  match Json.lastMember? members key.name with
  | some value => (s.replace? key value).getD s
  | none => s

/-- The settings that a stored value holds.  What is missing or unfit is as for a new user. -/
def ofJson : Json → Settings
  | .object members => SettingKey.all.foldl (take members) initial
  | _ => initial

end Settings

end Reckoner
