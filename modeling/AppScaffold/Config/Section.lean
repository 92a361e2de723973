import AppScaffold.Config.Mismatch
import AppScaffold.Settings

/-!
# Sections of a configuration

A section gives values to the fields of a record. It is a table, whose fields are taken in
increasing order of their names and whose other entries mean nothing, or a list, whose items are
taken for the fields in the order in which these are declared. A field that is not given keeps its
default.
-/

namespace AppScaffold

/-- A field of a record of type `σ`. -/
structure Field (σ : Type) where
  /-- Its name in a table. -/
  name : String
  /-- Its place in a list. -/
  position : Nat
  /-- The record with the field set. -/
  set : SettingTree → σ → Except Mismatch σ

namespace Field

variable {σ : Type}

/-- A field with what its setting is taken as and how the record changes. -/
def of {α : Type} (name : String) (position : Nat) (take : SettingTree → Except Mismatch α)
    (put : α → σ → σ) : Field σ :=
  ⟨name, position, fun t r => (take t).map fun a => put a r⟩

/-- The record with the fields that a table sets. -/
def fromEntries (entries : Entries SettingTree) : List (Field σ) → σ → Except Mismatch σ
  | [], r => .ok r
  | f :: fs, r =>
    match entries.lookup f.name with
    | none => fromEntries entries fs r
    | some t =>
      match SettingTree.within f.name (f.set t r) with
      | .ok r' => fromEntries entries fs r'
      | .error e => .error e

/-- The record with the fields that a list sets, the first item being for the given place. -/
def fromItems (fields : List (Field σ)) (source : Source) (place : Nat) :
    List ConfigValue → σ → Except Mismatch σ
  | [], r => .ok r
  | v :: vs, r =>
    match fields.find? (·.position = place) with
    | none => .ok r
    | some f =>
      match SettingTree.within (toString place) (f.set (.ofValue source v) r) with
      | .ok r' => fromItems fields source (place + 1) vs r'
      | .error e => .error e

end Field

/-- A record that a section gives, starting from its defaults. The fields are listed in increasing
order of their names. -/
def SettingTree.asRecord {σ : Type} (words : String) (fields : List (Field σ)) (defaults : σ) :
    SettingTree → Except Mismatch σ
  | branch _ entries => Field.fromEntries entries fields defaults
  | leaf source (.list items) => Field.fromItems fields source 0 items defaults
  | t => .error (t.mismatch words)

open SettingTree

/-- The fields of the layout. -/
def Layout.fields : List (Field Layout) :=
  [.of "api_dir" 3 asPath fun p l => { l with apiDir := p },
    .of "components_dir" 1 asPath fun p l => { l with componentsDir := p },
    .of "login_registry" 6 asPath fun p l => { l with loginRegistry := p },
    .of "navigation_dir" 4 asPath fun p l => { l with navigationDir := p },
    .of "redux_dir" 2 asPath fun p l => { l with reduxDir := p },
    .of "screen_registry" 5 asPath fun p l => { l with screenRegistry := p },
    .of "screens_dir" 0 asPath fun p l => { l with screensDir := p }]

/-- The fields of the extensions. -/
def Extensions.fields : List (Field Extensions) :=
  [.of "component" 0 asText fun s e => { e with component := s },
    .of "script" 1 asText fun s e => { e with script := s }]

/-- The fields of the tools. -/
def Tools.fields : List (Field Tools) :=
  [.of "initializer" 0 asText fun s t => { t with initializer := s },
    .of "initializer_args" 1 asTexts fun l t => { t with initializerArgs := l },
    .of "initializer_trailing_args" 2 asTexts fun l t => { t with initializerTrailingArgs := l },
    .of "installer" 3 asText fun s t => { t with installer := s },
    .of "installer_args" 4 asTexts fun l t => { t with installerArgs := l },
    .of "packages" 5 asTexts fun l t => { t with packages := l }]

/-- The fields of the features. -/
def Features.fields : List (Field Features) :=
  [.of "ask_api" 1 asFlag fun b f => { f with askApi := b },
    .of "ask_login" 0 asFlag fun b f => { f with askLogin := b },
    .of "initialize_project" 2 asFlag fun b f => { f with initializeProject := b },
    .of "install_packages" 3 asFlag fun b f => { f with installPackages := b }]

/-- The sections. -/
def Settings.fields : List (Field Settings) :=
  [.of "extensions" 1 (asRecord "struct Extensions" Extensions.fields {}) fun e s =>
      { s with extensions := e },
    .of "features" 3 (asRecord "struct FeatureFlags" Features.fields {}) fun f s =>
      { s with features := f },
    .of "layout" 0 (asRecord "struct Layout" Layout.fields {}) fun l s => { s with layout := l },
    .of "project" 2 (asRecord "struct ProjectSettings" Tools.fields {}) fun t s =>
      { s with tools := t }]

/-- The settings that a configuration gives. -/
def Settings.ofTree (t : SettingTree) : Except Mismatch Settings :=
  t.asRecord "struct ScaffoldConfig" Settings.fields {}

end AppScaffold
