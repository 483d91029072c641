import Bearer.Proofs.Config.EnvFiles
import Bearer.Proofs.Settings.Document
import Bearer.Proofs.Settings.Inline
import Bearer.Proofs.Settings.Reader
import Bearer.Proofs.Settings.Variable
import Bearer.Proofs.Time.DurationText
/-!
# Settings overridden by variables

* `Adds`: a host where one more variable is set, for a setting that no other variable is for.
* `settings_adds`: its settings are the ones from before, with this one laid over them.
* `typed_cases`: of the texts of lengths of time, the ones without a unit look like numbers.
* `variable_overrides`: a domain or a lifetime that a variable gives counts, and all other settings are
  kept, as long as the variable is taken as a text. If it is not, nothing is loaded.
-/

namespace Bearer

open Settings (Tree Source Reader)
open Settings.Inline (Typed NumberText)

/-! ## Texts laid over what is there -/

namespace Settings.Reader

variable {α : Type}

theorem text_eq (path : List String) (tree : Tree) : text path tree = match tree.text? with
    | some value => .ok value
    | none => mismatch path tree "a string" := by
  cases tree with
  | scalar source value => cases value <;> rfl
  | list => rfl
  | table => rfl

theorem text_layered (path : List String) (held : Option Tree) (leaf : Tree) :
    text path (.layered held leaf) = text path leaf := by
  obtain same | ⟨source, members, members', rfl, same⟩ := Tree.layered_cases held leaf
  · rw [same]
  · rw [same]
    rfl

theorem parsed_layered (parse : String → Except String α) (path : List String) (held : Option Tree)
    (leaf : Tree) : parsed parse path (.layered held leaf) = parsed parse path leaf := by
  obtain same | ⟨source, members, members', rfl, same⟩ := Tree.layered_cases held leaf
  · rw [same]
  · rw [same]
    rfl

end Settings.Reader

/-! ## Lengths of time without a unit -/

namespace Duration

theorem exists_of_parse {text : String} (trimmed : Text.trim text.toList = text.toList)
    {duration : Duration} (read : parse text = .ok duration) : ∃ count number suffix unit,
      text.toList = number ++ suffix ∧ Text.NaturalText count number ∧ count < limit ∧
        UnitText unit suffix := by
  obtain ⟨count, unit, ⟨number, isSplit, isNumber⟩, -⟩ := parse_eq_ok_iff.1 read
  rw [trimmed] at isSplit
  obtain ⟨suffix, isUnit, whole⟩ := unitText_of_splitUnit isSplit
  obtain ⟨written, fits⟩ := (Text.natural_eq_ok_iff limit_pos).1 isNumber
  exact ⟨count, number, suffix, unit, whole, written, fits, isUnit⟩

theorem eq_nil_of_subset {unit : TimeUnit} {suffix : List Char} (isUnit : UnitText unit suffix)
    (known : suffix ⊆ numberChars) : suffix = [] := by
  have foreign : ∀ c ∈ unitLetters, c ∉ numberChars := List.all_iff_forall_prop.1 (by decide)
  cases isUnit with
  | bare => rfl
  | _ => exact absurd (known List.mem_cons_self) (foreign _ (by decide))

theorem typed_cases {text : String} (trimmed : Text.trim text.toList = text.toList)
    {duration : Duration} (read : parse text = .ok duration) :
    ((∃ count, Text.NaturalText count text.toList) ∧ NumberText text.toList) ∨
      (¬∃ count, Text.NaturalText count text.toList) ∧ ¬Typed text.toList := by
  obtain ⟨count, number, suffix, unit, whole, written, fits, isUnit⟩ := exists_of_parse trimmed read
  have bare (known : text.toList ⊆ numberChars) : text.toList = number := by
    rw [whole] at known ⊢
    rw [eq_nil_of_subset isUnit fun c member => known (List.mem_append_right number member),
      List.append_nil]
  by_cases isNumber : NumberText text.toList
  · have same := bare isNumber.subset_numberChars
    rw [← same] at written
    exact .inl ⟨⟨count, written⟩, isNumber⟩
  · refine .inr ⟨fun ⟨count', written'⟩ => ?_, fun typed => ?_⟩
    · rw [bare written'.subset_numberChars] at isNumber
      exact isNumber (.natural written fits)
    · obtain ⟨c, rest, rfl⟩ := written.exists_cons
      exact isNumber (typed.number_of_head (congrArg List.head? whole)
        (written.subset_numberChars List.mem_cons_self))

end Duration

/-! ## Fields -/

open Settings.Reader (HasField apart_of)

theorem IssuerConfig.hasDomain : HasField reader .default "domain" .text domain
    fun issuer domain => { issuer with domain } := by
  refine ⟨_, _, rfl, rfl, fun _ _ => rfl, fun _ => rfl, fun _ _ _ => rfl, ?_⟩
  intro part member differs
  simp only [List.mem_singleton] at member
  subst member
  exact absurd rfl differs

theorem TokenConfig.hasDefaultTtl : HasField reader .default "default_ttl" (.parsed readDuration)
    defaultTtl fun tokens defaultTtl => { tokens with defaultTtl } := by
  refine ⟨_, _, rfl, rfl, fun _ _ => rfl, fun _ => rfl, fun _ _ _ => rfl, ?_⟩
  intro part member differs
  simp only [List.mem_cons, List.not_mem_nil, or_false] at member
  rcases member with rfl | rfl
  · exact apart_of fun _ _ _ => rfl
  · exact absurd rfl differs

namespace Config

theorem hasIssuer : HasField reader .default "issuer" IssuerConfig.reader issuer
    fun config issuer => { config with issuer } := by
  refine ⟨_, _, rfl, rfl, fun _ _ => rfl, fun _ => rfl, fun _ _ _ => rfl, ?_⟩
  intro part member differs
  simp only [List.mem_cons, List.not_mem_nil, or_false] at member
  rcases member with rfl | rfl | rfl | rfl
  · exact apart_of fun _ _ _ => rfl
  · exact absurd rfl differs
  · exact apart_of fun _ _ _ => rfl
  · exact apart_of fun _ _ _ => rfl

theorem hasTokens : HasField reader .default "tokens" TokenConfig.reader tokens
    fun config tokens => { config with tokens } := by
  refine ⟨_, _, rfl, rfl, fun _ _ => rfl, fun _ => rfl, fun _ _ _ => rfl, ?_⟩
  intro part member differs
  simp only [List.mem_cons, List.not_mem_nil, or_false] at member
  rcases member with rfl | rfl | rfl | rfl
  · exact apart_of fun _ _ _ => rfl
  · exact apart_of fun _ _ _ => rfl
  · exact apart_of fun _ _ _ => rfl
  · exact absurd rfl differs

/-! ## One more variable -/

/-- A host where one more variable is set, wherever it is listed, for a setting that no other variable
is for. -/
structure Adds (name value : String) (setting : List String) (host host' : Host) : Prop where
  elsewhere : Tree.Elsewhere setting host.environment
  listed : ∃ before behind, host.environment = before ++ behind ∧
    host' = { host with environment := before ++ (name, value) :: behind }

def base (path : Option String) (disk : FileSystem) : Except ConfigFault Tree :=
  match path with
  | some path => loadFile disk path
  | none => .ok (.table .environment [])

theorem settings_eq_ok {path : Option String} {host : Host} {tree : Tree} :
    settings path host = .ok tree ↔ ∃ found, base path host.disk = .ok found ∧
      found.merge (.ofVariables host.environment) = tree := by
  have same : settings path host = (base path host.disk >>= fun found =>
      pure (found.merge (.ofVariables host.environment))) := by
    cases path <;> rfl
  simp only [same, bind_eq_ok, pure_eq_ok]

theorem ordered_empty (source : Source) : (Tree.table source []).Ordered :=
  Tree.ordered_iff.2 Tree.orderedMembers_nil

theorem ordered_loadFile {disk : FileSystem} {path : String} {tree : Tree}
    (found : loadFile disk path = .ok tree) : tree.Ordered := by
  by_cases missing : (disk.resolve? path).isNone = true
  · rw [loadFile, if_pos missing] at found
    cases found
  · rw [loadFile, if_neg missing] at found
    dsimp only at found
    split at found
    · cases found
      exact ordered_empty _
    · split at found
      · exact Tree.ordered_ofYaml (mapError_eq_ok.1 found)
      · cases found

theorem ordered_base {path : Option String} {disk : FileSystem} {tree : Tree}
    (found : base path disk = .ok tree) : tree.Ordered := by
  cases path with
  | none =>
      cases found
      exact ordered_empty _
  | some path => exact ordered_loadFile found

section

variable {name value : String} {first : String} {rest : List String} {host host' : Host}
  {path : Option String} {tree : Tree} (adds : Adds name value (first :: rest) host host')
  (found : settings path host = .ok tree)

include adds found

theorem settings_adds (isSetting : Settings.settingPath? name = some (first :: rest)) :
    settings path host' =
      .ok (tree.merge (.nested .environment (first :: rest) (Settings.Inline.read value))) := by
  obtain ⟨elsewhere, before, behind, listed, rfl⟩ := adds
  obtain ⟨under, isBase, rfl⟩ := settings_eq_ok.1 found
  have filled : first :: rest ≠ [] := List.cons_ne_nil _ _
  refine settings_eq_ok.2 ⟨under, isBase, ?_⟩
  have room := Tree.hasRoom_ofVariables filled elsewhere
  rw [listed] at elsewhere room ⊢
  rw [Tree.ofVariables_with filled elsewhere isSetting,
    Tree.merge_nested_assoc (ordered_base isBase _) room]

theorem sortedAlong_settings : tree.SortedAlong (first :: rest) ∧ tree.IsTable := by
  obtain ⟨under, isBase, rfl⟩ := settings_eq_ok.1 found
  have room := Tree.hasRoom_ofVariables (List.cons_ne_nil _ _) adds.elsewhere
  have ordered := ordered_base isBase
  exact ⟨(ordered _).merge room, room.1.merge (Tree.ordered_iff.1 ordered).sorted⟩

end

/-! ## What the variable says -/

def givenText (setting : List String) (value : String) : Except ConfigFault String :=
  let tree := Settings.Inline.read value
  match tree.text? with
  | some text => .ok text
  | none => .error (.setting ⟨.invalidType tree.describe "a string", setting, .environment⟩)

def givenLifetime (setting : List String) (value : String) : Except ConfigFault Duration := do
  let text ← givenText setting value
  (Duration.parse text).mapError fun fault =>
    .setting ⟨.refused fault.message, setting, .environment⟩

theorem givenText_eq (setting : List String) (value : String) :
    (Reader.text setting (Settings.Inline.read value)).mapError .setting =
      givenText setting value := by
  rw [Settings.Reader.text_eq, givenText]
  cases (Settings.Inline.read value).text? with
  | some text => rfl
  | none =>
      simp only [Settings.Reader.mismatch, Settings.Reader.fail, mapError_error,
        Settings.Inline.source_read]

theorem givenLifetime_eq (setting : List String) (value : String) :
    (Reader.parsed readDuration setting (Settings.Inline.read value)).mapError .setting =
      givenLifetime setting value := by
  rw [givenLifetime, ← givenText_eq, Settings.Reader.parsed]
  cases Reader.text setting (Settings.Inline.read value) with
  | error fault => rfl
  | ok text =>
      simp only [ok_bind, mapError_ok, readDuration]
      cases Duration.parse text with
      | ok duration => rfl
      | error fault =>
          simp only [mapError_error, Settings.Reader.fail, Settings.Inline.source_read]

/-! ## The configuration with another setting -/

/-- The settings of tokens that stay when one of them is given by a variable. Those that a file gives as
a list do not. -/
def heldTokens (path : Option String) (host : Host) (config : Config) : TokenConfig :=
  match (settings path host).toOption.bind (·.member? "tokens") with
  | some (.list _ _) => .default
  | _ => config.tokens

theorem kept_tokens {path : Option String} {host : Host} {tree : Tree} (config : Config)
    (found : settings path host = .ok tree) (source : Source) :
    Settings.Reader.kept ((tree.member? "tokens").getD (.table source [])) .default config.tokens =
      heldTokens path host config := by
  rw [heldTokens, found]
  change _ = match tree.member? "tokens" with
    | some (.list _ _) => _
    | _ => _
  cases tree.member? "tokens" with
  | none => rfl
  | some held => cases held <;> rfl

theorem load_of_settings {path : Option String} {host : Host} {tree : Tree}
    (found : settings path host = .ok tree) : load path host =
      ((reader [] tree).mapError .setting).map fun config =>
        (config, loadEnvFiles host config.envFiles) := by
  rw [load, found, ok_bind]
  cases reader [] tree <;> rfl

theorem settings_of_load {path : Option String} {host after : Host} {config : Config}
    (loaded : load path host = .ok (config, after)) :
    ∃ tree, settings path host = .ok tree ∧ reader [] tree = .ok config := by
  simp only [load, bind_eq_ok, pure_eq_ok, mapError_eq_ok] at loaded
  obtain ⟨tree, isTree, found, read, same⟩ := loaded
  cases same
  exact ⟨tree, isTree, read⟩

section

variable {name : String} {path : Option String} {host host' after : Host} {config : Config}
  (loaded : load path host = .ok (config, after)) {value : String}

include loaded

theorem load_domain (isSetting : Settings.settingPath? name = some ["issuer", "domain"])
    (adds : Adds name value ["issuer", "domain"] host host') :
    load path host' = (givenText ["issuer", "domain"] value).map fun domain =>
      ({ config with issuer := ⟨domain⟩ }, loadEnvFiles host' config.envFiles) := by
  obtain ⟨tree, found, read⟩ := settings_of_load loaded
  obtain ⟨sorted, isTable⟩ := sortedAlong_settings adds found
  rw [load_of_settings (settings_adds adds found isSetting),
    hasIssuer.merge_nested₂ IssuerConfig.hasDomain isTable sorted read,
    Settings.Reader.text_layered, ← givenText_eq]
  simp only [List.nil_append, List.singleton_append]
  cases Reader.text ["issuer", "domain"] (Settings.Inline.read value) <;> rfl

theorem load_lifetime (isSetting : Settings.settingPath? name = some ["tokens", "default_ttl"])
    (adds : Adds name value ["tokens", "default_ttl"] host host') :
    load path host' = (givenLifetime ["tokens", "default_ttl"] value).map fun defaultTtl =>
      ({ config with tokens := { heldTokens path host config with defaultTtl } },
        loadEnvFiles host' config.envFiles) := by
  obtain ⟨tree, found, read⟩ := settings_of_load loaded
  obtain ⟨sorted, isTable⟩ := sortedAlong_settings adds found
  rw [load_of_settings (settings_adds adds found isSetting),
    hasTokens.merge_nested₂ TokenConfig.hasDefaultTtl isTable sorted read,
    Settings.Reader.parsed_layered, ← givenLifetime_eq, ← kept_tokens config found .environment]
  simp only [List.nil_append, List.singleton_append]
  cases Reader.parsed readDuration ["tokens", "default_ttl"] (Settings.Inline.read value) <;> rfl

end

/-! ## Which values count -/

theorem givenText_eq_ok_iff {value : String} (trimmed : Text.trim value.toList = value.toList)
    (setting : List String) : givenText setting value = .ok value ↔ ¬Typed value.toList := by
  rw [← Settings.Inline.text?_read_iff trimmed, givenText]
  cases (Settings.Inline.read value).text? <;> simp

theorem givenLifetime_of_text {value : String} (trimmed : Text.trim value.toList = value.toList)
    (untyped : ¬Typed value.toList) (setting : List String) : givenLifetime setting value =
      (Duration.parse value).mapError fun fault =>
        .setting ⟨.refused fault.message, setting, .environment⟩ := by
  rw [givenLifetime, (givenText_eq_ok_iff trimmed setting).2 untyped, ok_bind]

theorem givenLifetime_of_number {value : String} (isNumber : NumberText value.toList)
    (setting : List String) : ∃ fault, givenLifetime setting value = .error fault := by
  rw [givenLifetime, givenText, Settings.Inline.text?_read_number isNumber]
  exact ⟨_, rfl⟩

theorem givenLifetime_of_parse {value : String} (trimmed : Text.trim value.toList = value.toList)
    {duration : Duration} (read : Duration.parse value = .ok duration) (setting : List String) :
    ((∃ count, Text.NaturalText count value.toList) →
      ∃ fault, givenLifetime setting value = .error fault) ∧
    ((¬∃ count, Text.NaturalText count value.toList) →
      givenLifetime setting value = .ok duration) := by
  rcases Duration.typed_cases trimmed read with ⟨isBare, isNumber⟩ | ⟨isBare, untyped⟩
  · exact ⟨fun _ => givenLifetime_of_number isNumber setting, fun other => absurd isBare other⟩
  · refine ⟨fun other => absurd other isBare, fun _ => ?_⟩
    rw [givenLifetime_of_text trimmed untyped, read, mapError_ok]

/-! ## All together -/

/-- What a variable says of the domain, or of the lifetime of tokens, counts where a configuration has
been loaded without it, and all other settings are kept, but for those of tokens in a list. Nothing is
loaded when it says something that is no text, or no length of time. A value without white space at its
ends says the text that it is unless this looks like something else, as all numbers do: a length of
time needs a unit. -/
theorem variable_overrides {path : Option String} {host after : Host} {config : Config}
    (loaded : load path host = .ok (config, after)) (value : String) :
    (∀ host', Adds "SEALED_TOKEN_ISSUER__DOMAIN" value ["issuer", "domain"] host host' →
      load path host' = (givenText ["issuer", "domain"] value).map fun domain =>
        ({ config with issuer := ⟨domain⟩ }, loadEnvFiles host' config.envFiles)) ∧
    (∀ host',
      Adds "SEALED_TOKEN_TOKENS__DEFAULT_TTL" value ["tokens", "default_ttl"] host host' →
      load path host' = (givenLifetime ["tokens", "default_ttl"] value).map fun defaultTtl =>
        ({ config with tokens := { heldTokens path host config with defaultTtl } },
          loadEnvFiles host' config.envFiles)) ∧
    (Text.trim value.toList = value.toList → ∀ setting,
      (givenText setting value = .ok value ↔ ¬Typed value.toList) ∧
      (¬Typed value.toList → givenLifetime setting value =
        (Duration.parse value).mapError fun fault =>
          .setting ⟨.refused fault.message, setting, .environment⟩) ∧
      ∀ duration, Duration.parse value = .ok duration →
        ((∃ count, Text.NaturalText count value.toList) →
          ∃ fault, givenLifetime setting value = .error fault) ∧
        ((¬∃ count, Text.NaturalText count value.toList) →
          givenLifetime setting value = .ok duration)) := by
  have isDomain : Settings.settingPath? "SEALED_TOKEN_ISSUER__DOMAIN" =
      some ["issuer", "domain"] := by decide +kernel
  have isLifetime : Settings.settingPath? "SEALED_TOKEN_TOKENS__DEFAULT_TTL" =
      some ["tokens", "default_ttl"] := by decide +kernel
  refine ⟨fun host' => load_domain loaded isDomain, fun host' => load_lifetime loaded isLifetime, ?_⟩
  intro trimmed setting
  exact ⟨givenText_eq_ok_iff trimmed setting,
    fun untyped => givenLifetime_of_text trimmed untyped setting,
    fun duration read => givenLifetime_of_parse trimmed read setting⟩

/-! ## A lifetime with and without a unit -/

def strictHost (environment : Variables) : Host where
  disk := ⟨[(["c.yaml"], .file (Utf8.encode "tokens:\n  require_expiry: true\n")
    FileSystem.defaultMode)], []⟩
  environment

def strictConfig : Config := { Config.default with tokens := ⟨true, ⟨900, 0⟩⟩ }

theorem load_strictHost :
    load (some "c.yaml") (strictHost []) = .ok (strictConfig, strictHost []) :=
  load_of_config (by decide +kernel)

theorem adds_strictHost (name value : String) (setting : List String) :
    Adds name value setting (strictHost []) (strictHost [(name, value)]) :=
  ⟨List.forall_mem_nil _, [], [], rfl, rfl⟩

theorem domain_and_lifetime_count :
    let unset := strictHost []
    let named := strictHost [("SEALED_TOKEN_ISSUER__DOMAIN", "example.org")]
    let timed := strictHost [("SEALED_TOKEN_TOKENS__DEFAULT_TTL", "30s")]
    load (some "c.yaml") unset = .ok (strictConfig, unset) ∧
      load (some "c.yaml") named =
        .ok ({ strictConfig with issuer := ⟨"example.org"⟩ }, named) ∧
      Duration.parse "30s" = .ok ⟨30, 0⟩ ∧
      load (some "c.yaml") timed = .ok ({ strictConfig with tokens := ⟨true, ⟨30, 0⟩⟩ }, timed) := by
  intro unset named timed
  have read : Duration.parse "30s" = .ok ⟨30, 0⟩ := rfl
  refine ⟨load_strictHost, ?_, read, ?_⟩
  · obtain ⟨domain, -, -⟩ := variable_overrides load_strictHost "example.org"
    have given : givenText ["issuer", "domain"] "example.org" = .ok "example.org" := rfl
    rw [domain named (adds_strictHost _ _ _), given]
    rfl
  · obtain ⟨-, lifetime, which⟩ := variable_overrides load_strictHost "30s"
    have hasUnit : ¬∃ count, Text.NaturalText count "30s".toList := by
      rintro ⟨count, written⟩
      have known : 's' ∈ numberChars := written.subset_numberChars (by decide)
      exact absurd known (by decide)
    have given := ((which rfl ["tokens", "default_ttl"]).2.2 _ read).2 hasUnit
    have held : heldTokens (some "c.yaml") unset strictConfig = ⟨true, ⟨900, 0⟩⟩ := by
      decide +kernel
    rw [lifetime timed (adds_strictHost _ _ _), given, held]
    rfl

theorem bare_seconds_do_not_count :
    let unset := strictHost []
    let set := strictHost [("SEALED_TOKEN_TOKENS__DEFAULT_TTL", "900")]
    load (some "c.yaml") unset = .ok (strictConfig, unset) ∧
      Text.trim "900".toList = "900".toList ∧
      Duration.parse "900" = .ok ⟨900, 0⟩ ∧
      load (some "c.yaml") set = .error (.setting
        ⟨.invalidType "unsigned int `900`" "a string", ["tokens", "default_ttl"], .environment⟩) := by
  intro unset set
  refine ⟨load_strictHost, rfl, rfl, ?_⟩
  have adds : Adds _ "900" ["tokens", "default_ttl"] unset set := adds_strictHost _ _ _
  rw [load_lifetime load_strictHost (by decide +kernel) adds]
  rfl

end Config

end Bearer
