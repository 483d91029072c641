import Bearer.Config.Load
import Bearer.Config.Resolve
import Bearer.Proofs.EnvFile
import Bearer.Proofs.Outcome

namespace Bearer.Config

open Variables

/-! ## One file -/

def content? (host : Host) (path : String) : Option Bytes :=
  (host.disk.resolve? (host.expandHome path)).bind fun place => (host.disk.read place).toOption

def fileDefinitions (host : Host) (path : String) : Definitions :=
  match content? host path with
  | some content => EnvFile.definitions host.environment content
  | none => []

theorem proper_fileDefinitions (host : Host) (path : String) :
    Proper (fileDefinitions host path) := by
  unfold fileDefinitions
  cases content? host path with
  | some content => exact EnvFile.proper_definitions _ _
  | none => exact List.forall_mem_nil _

theorem loadEnvFile_eq (host : Host) (path : String) : loadEnvFile host path =
    { host with environment := host.environment.defineAll (fileDefinitions host path) } := by
  change (match content? host path with
    | some content => { host with environment := EnvFile.load host.environment content }
    | none => host) = _
  unfold fileDefinitions
  cases content? host path with
  | some content => simp only [EnvFile.load_eq]
  | none => rfl

theorem get?_loadEnvFile {name : String} (isName : IsVariable name) (host : Host) (path : String) :
    (loadEnvFile host path).environment.get? name =
      (host.environment.get? name).or ((fileDefinitions host path).lookup name) := by
  rw [loadEnvFile_eq]
  exact get?_defineAll isName _ (proper_fileDefinitions host path)

/-! ## Several files -/

inductive FirstGiven (name value : String) : Host → List String → Prop where
  | here {host : Host} {path : String} {paths : List String}
      (given : (fileDefinitions host path).lookup name = some value) :
      FirstGiven name value host (path :: paths)
  | later {host : Host} {path : String} {paths : List String}
      (absent : (fileDefinitions host path).lookup name = none)
      (given : FirstGiven name value (loadEnvFile host path) paths) :
      FirstGiven name value host (path :: paths)

def DefinedIn (name : String) (host : Host) (paths : List String) : Prop :=
  ∃ before path behind value, paths = before ++ path :: behind ∧
    (name, value) ∈ fileDefinitions (loadEnvFiles host before) path

theorem isVariable_of_definedIn {name : String} {host : Host} {paths : List String}
    (defined : DefinedIn name host paths) : IsVariable name := by
  obtain ⟨before, path, behind, value, -, member⟩ := defined
  exact proper_fileDefinitions _ _ _ member

theorem definedIn_of_firstGiven {name value : String} {host : Host} {paths : List String}
    (first : FirstGiven name value host paths) : DefinedIn name host paths := by
  induction first with
  | @here host path paths given =>
      obtain ⟨front, rest, made, -⟩ := List.lookup_eq_some_iff.1 given
      exact ⟨[], path, paths, value, rfl, by simp [loadEnvFiles, made]⟩
  | @later host path paths _ _ ih =>
      obtain ⟨before, file, behind, found, rfl, member⟩ := ih
      exact ⟨path :: before, file, behind, found, rfl, member⟩

theorem lookup_ne_none {name value : String} {made : Definitions} (member : (name, value) ∈ made) :
    made.lookup name ≠ none := by
  intro absent
  rw [List.lookup_eq_none_iff] at absent
  simpa using absent _ member

theorem exists_firstGiven {name : String} {host : Host} {paths : List String}
    (defined : DefinedIn name host paths) : ∃ value, FirstGiven name value host paths := by
  obtain ⟨before, path, behind, value, rfl, member⟩ := defined
  induction before generalizing host with
  | nil =>
      obtain ⟨first, isFirst⟩ := Option.ne_none_iff_exists'.1 (lookup_ne_none member)
      exact ⟨first, .here isFirst⟩
  | cons earlier before ih =>
      cases here : (fileDefinitions host earlier).lookup name with
      | some first => exact ⟨first, .here here⟩
      | none =>
          obtain ⟨first, isFirst⟩ := ih member
          exact ⟨first, .later here isFirst⟩

theorem get?_loadEnvFiles_of_some {name value : String} {host : Host}
    (held : host.environment.get? name = some value) (paths : List String) :
    (loadEnvFiles host paths).environment.get? name = some value := by
  induction paths generalizing host with
  | nil => exact held
  | cons path paths ih =>
      have here : (loadEnvFile host path).environment.get? name = some value := by
        rw [loadEnvFile_eq]
        exact get?_defineAll_of_some held _
      exact ih here

theorem get?_loadEnvFiles_iff {name value : String} (isName : IsVariable name) {host : Host}
    (unset : host.environment.get? name = none) (paths : List String) :
    (loadEnvFiles host paths).environment.get? name = some value ↔
      FirstGiven name value host paths := by
  induction paths generalizing host with
  | nil =>
      constructor
      · intro held
        cases unset.symm.trans held
      · nofun
  | cons path paths ih =>
      change (loadEnvFiles (loadEnvFile host path) paths).environment.get? name = some value ↔ _
      have here := get?_loadEnvFile isName host path
      rw [unset, Option.none_or] at here
      cases given : (fileDefinitions host path).lookup name with
      | some first =>
          -- The variable is set from here on, and no other file changes it.
          rw [given] at here
          rw [get?_loadEnvFiles_of_some here]
          constructor
          · intro same
            exact .here (given.trans same)
          · rintro (same | ⟨absent, -⟩)
            · exact given.symm.trans same
            · cases given.symm.trans absent
      | none =>
          -- It is as unset as before, so that the other files decide.
          rw [given] at here
          rw [ih here]
          constructor
          · exact .later given
          · rintro (same | ⟨-, later⟩)
            · cases given.symm.trans same
            · exact later

/-! ## All together -/

theorem host_of_load {path : Option String} {host after : Host} {config : Config}
    (loaded : load path host = .ok (config, after)) : after = loadEnvFiles host config.envFiles := by
  simp only [load, bind_eq_ok, pure_eq_ok, Prod.mk.injEq] at loaded
  obtain ⟨_, _, _, _, rfl, rfl⟩ := loaded
  rfl

theorem masterKeyText_of_variable {keyStore : KeyStoreConfig} {environment : Variables}
    {name value : String} (named : keyStore.masterKey = some ("env:" ++ name))
    (held : environment.get? name = some value) :
    keyStore.masterKeyText environment = .ok value := by
  have marked : KeyStoreConfig.variableMark.isPrefixOf ("env:" ++ name).toList = true := by
    simp [KeyStoreConfig.variableMark]
  have behind : String.ofList
      (("env:" ++ name).toList.drop KeyStoreConfig.variableMark.length) = name := by
    simp [KeyStoreConfig.variableMark]
  simp only [KeyStoreConfig.masterKeyText, named, marked, if_true, behind, held]

/-- Once a configuration has been loaded, a variable that was set before has the value that it had. One
that was not, and that some of the files define, has the value that the first of these gives it, and a
master key that is kept in the variable is this value. What no file defines stays unset. -/
theorem first_env_file_counts {path : Option String} {host after : Host} {config : Config}
    (loaded : load path host = .ok (config, after)) (name : String) :
    (∀ value, host.environment.get? name = some value →
      after.environment.get? name = some value) ∧
    (host.environment.get? name = none →
      (DefinedIn name host config.envFiles →
        (∃ value, FirstGiven name value host config.envFiles) ∧
        ∀ value, FirstGiven name value host config.envFiles →
          after.environment.get? name = some value ∧
          ∀ keyStore : KeyStoreConfig, keyStore.masterKey = some ("env:" ++ name) →
            keyStore.masterKeyText after.environment = .ok value) ∧
      (IsVariable name → ¬DefinedIn name host config.envFiles →
        after.environment.get? name = none)) := by
  obtain rfl := host_of_load loaded
  refine ⟨fun value held => get?_loadEnvFiles_of_some held _, fun unset => ⟨?_, ?_⟩⟩
  · intro defined
    refine ⟨exists_firstGiven defined, fun value first => ?_⟩
    have isName := isVariable_of_definedIn defined
    have held := (get?_loadEnvFiles_iff isName unset config.envFiles).2 first
    exact ⟨held, fun keyStore named => masterKeyText_of_variable named held⟩
  · intro isName undefined
    refine Option.eq_none_iff_forall_ne_some.2 fun value held => undefined ?_
    exact definedIn_of_firstGiven ((get?_loadEnvFiles_iff isName unset config.envFiles).1 held)

/-! ## Two files that disagree -/

theorem load_of_config {path : Option String} {host : Host} {config : Config}
    (found : (load path host).toOption.map Prod.fst = some config) :
    load path host = .ok (config, loadEnvFiles host config.envFiles) := by
  cases loaded : load path host with
  | error fault =>
      rw [loaded] at found
      cases found
  | ok pair =>
      rw [loaded] at found
      obtain rfl := Option.some.inj found
      rw [← host_of_load loaded]

def rivalFiles : Host where
  disk := ⟨[(["a.env"], .file (Utf8.encode "OT_A=first\n") FileSystem.defaultMode),
    (["b.env"], .file (Utf8.encode "OT_A=second\n") FileSystem.defaultMode)], []⟩
  environment := [("SEALED_TOKEN_ENV_FILES", "[a.env, b.env]"),
    ("SEALED_TOKEN_KEY_STORE__MASTER_KEY", "env:OT_A")]

def rivalConfig : Config :=
  { Config.default with
    envFiles := ["a.env", "b.env"], keyStore := ⟨.memory, none, some "env:OT_A"⟩ }

theorem load_rivalFiles :
    load none rivalFiles = .ok (rivalConfig, loadEnvFiles rivalFiles ["a.env", "b.env"]) :=
  load_of_config (by decide +kernel)

theorem first_rival_counts :
    let after := loadEnvFiles rivalFiles ["a.env", "b.env"]
    load none rivalFiles = .ok (rivalConfig, after) ∧
      rivalFiles.environment.get? "OT_A" = none ∧
      FirstGiven "OT_A" "first" rivalFiles ["a.env", "b.env"] ∧
      after.environment.get? "OT_A" = some "first" ∧
      rivalConfig.keyStore.masterKeyText after.environment = .ok "first" := by
  have unset : rivalFiles.environment.get? "OT_A" = none := by decide +kernel
  have given : (fileDefinitions rivalFiles "a.env").lookup "OT_A" = some "first" := by
    decide +kernel
  have first : FirstGiven "OT_A" "first" rivalFiles ["a.env", "b.env"] := .here given
  obtain ⟨-, counts⟩ := first_env_file_counts load_rivalFiles "OT_A"
  obtain ⟨held, resolves⟩ := ((counts unset).1 (definedIn_of_firstGiven first)).2 "first" first
  exact ⟨load_rivalFiles, unset, first, held, resolves rivalConfig.keyStore rfl⟩

theorem last_rival_is_ignored :
    let after := loadEnvFiles rivalFiles ["a.env", "b.env"]
    load none rivalFiles = .ok (rivalConfig, after) ∧
      rivalFiles.environment.get? "OT_A" = none ∧
      fileDefinitions (loadEnvFiles rivalFiles ["a.env"]) "b.env" = [("OT_A", "second")] ∧
      after.environment.get? "OT_A" = some "first" ∧
      (rivalConfig.keyStore.masterKeyText after.environment).toOption = some "first" :=
  ⟨load_rivalFiles, by decide +kernel, by decide +kernel, by decide +kernel, by decide +kernel⟩

end Bearer.Config
