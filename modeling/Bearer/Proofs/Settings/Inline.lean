import Bearer.Proofs.Settings.Scalar
import Bearer.Settings.Variable
import Mathlib.Data.Bool.AllAny

namespace Bearer.Settings

namespace Inline

/-! ## Running readers -/

section

variable {α β : Type}

theorem run_bind (first : InlineM α) (next : α → InlineM β) (chars : List Char) :
    (first >>= next) chars = (first chars).bind fun found => next found.1 found.2 := by
  change (first chars >>= fun found => next found.1 found.2) = _
  cases first chars <;> rfl

theorem run_bind_eq_some {first : InlineM α} {next : α → InlineM β} {chars : List Char}
    {result : β × List Char} : (first >>= next) chars = some result ↔
      ∃ found rest, first chars = some (found, rest) ∧ next found rest = some result := by
  rw [run_bind, Option.bind_eq_some_iff, Prod.exists]

theorem eq_cons_of_eat {c : Char} {chars rest : List Char} (eaten : eat c chars = some ((), rest)) :
    chars = c :: rest := by
  cases chars with
  | nil => cases eaten
  | cons next chars =>
      unfold eat at eaten
      dsimp only at eaten
      split_ifs at eaten with same
      cases eaten
      rw [same]

theorem eatWord_yes {word : String} {chars : List Char} (starts : word.toList <+: chars) :
    eatWord word chars = some (true, chars.drop word.length) :=
  congrArg some (if_pos (List.isPrefixOf_iff_prefix.2 starts))

theorem eatWord_no {word : String} {chars : List Char} (starts : ¬word.toList <+: chars) :
    eatWord word chars = some (false, chars) :=
  congrArg some (if_neg fun isPrefix => starts (List.isPrefixOf_iff_prefix.1 isPrefix))

end

/-! ## Texts in quotes -/

theorem eq_append_of_upToQuote {isEscaped : Bool} {chars text rest : List Char}
    (found : upToQuote isEscaped chars = some (text, rest)) : chars = text ++ '"' :: rest := by
  induction chars generalizing isEscaped text with
  | nil => cases found
  | cons c chars ih =>
      unfold upToQuote at found
      split at found
      · next isQuote =>
          cases found
          rw [Bool.and_eq_true, decide_eq_true_eq] at isQuote
          rw [isQuote.1]
          rfl
      · simp only [Option.bind_eq_bind, Option.bind_eq_some_iff] at found
        obtain ⟨⟨inner, rest'⟩, further, same⟩ := found
        cases same
        rw [ih further]
        rfl

/-! A text is not longer than what is written of it. -/

theorem length_map_cons_le {found : Option (List Char)} {c : Char} {text : List Char} {size : Nat}
    (made : found.map (c :: ·) = some text)
    (shorter : ∀ inner, found = some inner → inner.length ≤ size) : text.length ≤ size + 1 := by
  obtain ⟨inner, isFound, rfl⟩ := Option.map_eq_some_iff.1 made
  exact Nat.succ_le_succ (shorter inner isFound)

theorem length_unescapedFrom_le {chars text : List Char} {escape : Escape}
    (read : unescapedFrom escape chars = some text) : text.length ≤ chars.length := by
  induction chars generalizing escape text with
  | nil =>
      cases escape with
      | outside =>
          cases read
          exact Nat.le_refl _
      | started => cases read
      | digits => cases read
  | cons c chars ih =>
      cases escape with
      | outside =>
          rw [unescapedFrom] at read
          split_ifs at read
          · exact Nat.le_succ_of_le (ih read)
          · exact length_map_cons_le read fun _ => ih
      | started =>
          rw [unescapedFrom] at read
          split at read
          · exact length_map_cons_le read fun _ => ih
          · exact Nat.le_succ_of_le (ih read)
          · cases read
      | digits count value =>
          rw [unescapedFrom] at read
          split at read
          · cases read
          · dsimp only at read
            split_ifs at read
            · exact Nat.le_succ_of_le (ih read)
            · exact length_map_cons_le read fun _ => ih

theorem length_fitting_le (size : Nat) (chars : List Char) :
    (fitting size chars).length ≤ chars.length := by
  induction chars generalizing size with
  | nil => exact Nat.le_refl _
  | cons c chars ih =>
      unfold fitting
      split
      · exact Nat.succ_le_succ (ih _)
      · exact Nat.zero_le _

theorem length_unescaped_le {chars text : List Char} (read : unescaped chars = some text) :
    text.length ≤ chars.length := by
  unfold unescaped at read
  rw [List.span_eq_takeWhile_dropWhile] at read
  obtain ⟨_, _, made⟩ := Option.bind_eq_some_iff.1 read
  have parts := congrArg List.length
    (List.takeWhile_append_dropWhile (p := (· != '\\')) (l := chars))
  rw [List.length_append] at parts
  split_ifs at made
  · cases made
    omega
  · obtain ⟨inner, further, same⟩ := Option.bind_eq_some_iff.1 made
    cases same
    have inFront := length_fitting_le (chars.takeWhile (· != '\\')).length
      (chars.takeWhile (· != '\\'))
    have behind := length_unescapedFrom_le further
    rw [List.length_append]
    omega

theorem exists_of_quoted {chars rest : List Char} {text : String}
    (read : quoted chars = some (text, rest)) : ∃ inner, chars = '"' :: inner ++ '"' :: rest ∧
      unescaped inner = some text.toList := by
  unfold quoted at read
  obtain ⟨_, _, eaten, read⟩ := run_bind_eq_some.1 read
  obtain ⟨inner, rest', closed, read⟩ := run_bind_eq_some.1 read
  have whole := eq_append_of_upToQuote closed
  cases meant : unescaped inner with
  | none =>
      rw [meant] at read
      cases read
  | some found =>
      rw [meant] at read
      cases read
      exact ⟨inner, by rw [eq_cons_of_eat eaten, whole, List.cons_append],
        by rw [meant, String.toList_ofList]⟩

theorem eq_of_lone {chars rest : List Char} {c : Char} (read : lone chars = some (c, rest)) :
    chars = [Char.ofNat 39, c] ++ Char.ofNat 39 :: rest := by
  unfold lone at read
  obtain ⟨_, _, opened, read⟩ := run_bind_eq_some.1 read
  obtain ⟨found, _, taken, read⟩ := run_bind_eq_some.1 read
  obtain ⟨_, _, closed, read⟩ := run_bind_eq_some.1 read
  cases read
  rw [eq_cons_of_eat opened]
  unfold anyChar at taken
  split at taken
  · cases taken
    rw [eq_cons_of_eat closed]
    rfl
  · cases taken

/-! ## Values -/

variable (table : InlineM (List (String × Tree))) (list : InlineM (List Tree))

def opened : Option Char → InlineM Tree
  | some '\x7b' => do
      eat '\x7b'
      return .table .environment (Members.ofList (← table))
  | some '[' => do
      eat '['
      return .list .environment (← list)
  | some '"' => do return .text .environment (← quoted)
  | some c => do
      if c = Char.ofNat 39 then return scalar (.char (← lone))
      else return scalar (bareScalar (Text.trim (← takeWhile fun c => !isMark c)))
  | none => return scalar (bareScalar [])

theorem core_true {chars : List Char} (starts : "true".toList <+: chars) :
    core table list chars = some (scalar (.bool true), chars.drop 4) := by
  rw [core, run_bind, eatWord_yes starts]
  rfl

theorem core_false {chars : List Char} (noTrue : ¬"true".toList <+: chars)
    (starts : "false".toList <+: chars) :
    core table list chars = some (scalar (.bool false), chars.drop 5) := by
  rw [core, run_bind, eatWord_no noTrue]
  change (eatWord "false" >>= _) chars = _
  rw [run_bind, eatWord_yes starts]
  rfl

theorem core_opened {chars : List Char} (noTrue : ¬"true".toList <+: chars)
    (noFalse : ¬"false".toList <+: chars) :
    core table list chars = opened table list chars.head? chars := by
  rw [core, run_bind, eatWord_no noTrue]
  change (eatWord "false" >>= _) chars = _
  rw [run_bind, eatWord_no noFalse]
  rfl

def openers : List Char := ['\x7b', '[', '"', Char.ofNat 39]

theorem opened_other {c : Char} (other : c ∉ openers) : opened table list (some c) = (do
    return scalar (bareScalar (Text.trim (← takeWhile fun c => !isMark c)))) := by
  simp only [openers, List.mem_cons, List.not_mem_nil, or_false, not_or] at other
  obtain ⟨noTable, noList, noQuote, noLone⟩ := other
  unfold opened
  split <;> rename_i same <;> cases same
  · exact absurd rfl noTable
  · exact absurd rfl noList
  · exact absurd rfl noQuote
  · exact if_neg noLone

theorem opened_bare {chars : List Char} (bare : ∀ c ∈ chars.head?, c ∉ openers) :
    opened table list chars.head? chars =
      some (scalar (bareScalar (Text.trim (chars.takeWhile (!isMark ·)))),
        chars.dropWhile (!isMark ·)) := by
  cases chars with
  | nil => rfl
  | cons c rest => exact congrFun (opened_other table list (bare c rfl)) (c :: rest)

theorem exists_of_opened_table {chars rest : List Char} {tree : Tree}
    (ran : opened table list (some '\x7b') chars = some (tree, rest)) :
    ∃ members, tree = .table .environment members := by
  obtain ⟨_, _, _, ran⟩ := run_bind_eq_some.1 ran
  obtain ⟨found, _, _, ran⟩ := run_bind_eq_some.1 ran
  cases ran
  exact ⟨_, rfl⟩

theorem exists_of_opened_list {chars rest : List Char} {tree : Tree}
    (ran : opened table list (some '[') chars = some (tree, rest)) :
    ∃ items, tree = .list .environment items := by
  obtain ⟨_, _, _, ran⟩ := run_bind_eq_some.1 ran
  obtain ⟨found, _, _, ran⟩ := run_bind_eq_some.1 ran
  cases ran
  exact ⟨_, rfl⟩

theorem source_opened {head : Option Char} {chars rest : List Char} {tree : Tree}
    (ran : opened table list head chars = some (tree, rest)) : tree.source = .environment := by
  cases head with
  | none =>
      cases ran
      rfl
  | some c =>
      by_cases isOpener : c ∈ openers
      · simp only [openers, List.mem_cons, List.not_mem_nil, or_false] at isOpener
        rcases isOpener with rfl | rfl | rfl | rfl
        · obtain ⟨members, rfl⟩ := exists_of_opened_table table list ran
          rfl
        · obtain ⟨items, rfl⟩ := exists_of_opened_list table list ran
          rfl
        · obtain ⟨_, _, _, ran⟩ := run_bind_eq_some.1 ran
          cases ran
          rfl
        · obtain ⟨_, _, _, ran⟩ := run_bind_eq_some.1 ran
          cases ran
          rfl
      · rw [opened_other table list isOpener] at ran
        cases ran
        rfl

theorem opened_quoted (chars : List Char) : opened table list (some '"') chars =
    (quoted chars).map fun found => (Tree.text .environment found.1, found.2) := by
  change (quoted >>= fun text => pure (Tree.text .environment text) : InlineM Tree) chars = _
  rw [run_bind]
  cases quoted chars <;> rfl

theorem opened_lone (chars : List Char) : opened table list (some (Char.ofNat 39)) chars =
    (lone chars).map fun found => (scalar (.char found.1), found.2) := by
  change (lone >>= fun found => pure (scalar (.char found)) : InlineM Tree) chars = _
  rw [run_bind]
  cases lone chars <;> rfl

theorem value_succ (fuel : Nat) (chars : List Char) : value (fuel + 1) chars =
    (core (members fuel) (items fuel) (chars.dropWhile isSpace)).map fun found =>
      (found.1, found.2.dropWhile isSpace) := by
  rw [value]
  change (core (members fuel) (items fuel) >>= fun tree => do
    skipSpace
    return tree : InlineM Tree) (chars.dropWhile isSpace) = _
  rw [run_bind]
  cases core (members fuel) (items fuel) (chars.dropWhile isSpace) <;> rfl

/-! ## Texts that are taken as something else -/

end Inline

def Tree.text? : Tree → Option String
  | .scalar _ value => value.text?
  | _ => none

namespace Inline

def Closes (chars : List Char) (tree : Tree) : Prop :=
  value (2 * chars.length + 2) chars = some (tree, [])

/-- A text that is written like a value of another kind, or like a text in quotes. -/
inductive Typed (chars : List Char) : Prop where
  | truth (isTruth : chars = "true".toList ∨ chars = "false".toList)
  | number (isNumber : NumberText chars)
  | character {c : Char} (isCharacter : chars = [Char.ofNat 39, c, Char.ofNat 39])
  | quoted {text : String} (closed : quoted chars = some (text, []))
  | group {tree : Tree} (opens : chars.head? = some '[' ∨ chars.head? = some '\x7b')
      (closed : Closes chars tree)

theorem closes_iff {chars : List Char} {tree : Tree} : Closes chars tree ↔ ∃ rest,
    core (members (2 * chars.length + 1)) (items (2 * chars.length + 1))
      (chars.dropWhile isSpace) = some (tree, rest) ∧ rest.dropWhile isSpace = [] := by
  rw [Closes, value_succ, Option.map_eq_some_iff]
  simp only [Prod.exists, Prod.mk.injEq]
  constructor
  · rintro ⟨found, rest, ran, rfl, behind⟩
    exact ⟨rest, ran, behind⟩
  · rintro ⟨rest, ran, behind⟩
    exact ⟨tree, rest, ran, rfl, behind⟩

theorem closes_iff_opened {chars : List Char} {tree : Tree}
    (initial : ∀ c ∈ chars.head?, isSpace c = false ∧ c ≠ 't' ∧ c ≠ 'f') :
    Closes chars tree ↔ ∃ rest, opened (members (2 * chars.length + 1))
      (items (2 * chars.length + 1)) chars.head? chars = some (tree, rest) ∧
        rest.dropWhile isSpace = [] := by
  have noTrue : ¬"true".toList <+: chars := by
    rintro ⟨behind, rfl⟩
    exact (initial 't' rfl).2.1 rfl
  have noFalse : ¬"false".toList <+: chars := by
    rintro ⟨behind, rfl⟩
    exact (initial 'f' rfl).2.2 rfl
  have start : chars.dropWhile isSpace = chars := by
    cases chars with
    | nil => rfl
    | cons c behind => exact List.dropWhile_cons_of_neg (by simp [(initial c rfl).1])
  rw [closes_iff, start, core_opened _ _ noTrue noFalse]

theorem closes_number {chars : List Char} (isNumber : NumberText chars) :
    Closes chars (scalar (bareScalar chars)) := by
  have plain : ∀ c ∈ numberChars, c ∉ openers ∧ isMark c = false ∧ Text.isBlank c = false ∧
    isSpace c = false ∧ c ≠ 't' ∧ c ≠ 'f' := List.all_iff_forall_prop.1 (by decide)
  have known := isNumber.subset_numberChars
  have knownHead {c : Char} (isHead : c ∈ chars.head?) := known (List.mem_of_mem_head? isHead)
  have inside : ∀ c ∈ chars, (!isMark c) = true := fun c member => by
    rw [(plain c (known member)).2.1]
    rfl
  have solid : Text.Solid chars := fun c member => (plain c (known member)).2.2.1
  refine (closes_iff_opened fun c isHead => (plain c (knownHead isHead)).2.2.2).2 ⟨[], ?_, rfl⟩
  rw [opened_bare _ _ fun c isHead => (plain c (knownHead isHead)).1,
    List.takeWhile_eq_self_iff.2 inside, List.dropWhile_eq_nil_iff.2 inside, Text.trim_solid solid]

theorem closes_character (c : Char) :
    Closes [Char.ofNat 39, c, Char.ofNat 39] (scalar (.char c)) := by
  refine (closes_iff_opened fun other isHead => ?_).2 ⟨[], ?_, rfl⟩
  · cases isHead
    decide
  · exact opened_lone _ _ _

theorem closes_quoted {chars : List Char} {text : String}
    (closed : quoted chars = some (text, [])) : Closes chars (.text .environment text) := by
  obtain ⟨inner, rfl, -⟩ := exists_of_quoted closed
  refine (closes_iff_opened fun other isHead => ?_).2 ⟨[], ?_, rfl⟩
  · cases isHead
    decide
  · refine (opened_quoted _ _ _).trans ?_
    rw [closed]
    rfl

theorem text?_of_group {chars : List Char} {tree : Tree}
    (opens : chars.head? = some '[' ∨ chars.head? = some '\x7b') (closed : Closes chars tree) :
    tree.text? = none := by
  obtain ⟨rest, ran, -⟩ := (closes_iff_opened fun c isHead => by
    rcases opens with isOpener | isOpener <;> cases isOpener.symm.trans isHead <;> decide).1 closed
  rcases opens with isOpener | isOpener <;> rw [isOpener] at ran
  · obtain ⟨items, rfl⟩ := exists_of_opened_list _ _ ran
    rfl
  · obtain ⟨members, rfl⟩ := exists_of_opened_table _ _ ran
    rfl

theorem closes_of_typed {chars : List Char} (typed : Typed chars) :
    ∃ tree, Closes chars tree ∧ tree.text? ≠ some (String.ofList chars) := by
  cases typed with
  | truth isTruth => rcases isTruth with rfl | rfl <;> exact ⟨_, rfl, nofun⟩
  | number isNumber =>
      refine ⟨_, closes_number isNumber, fun isText => ?_⟩
      cases (text?_bareScalar isNumber).symm.trans isText
  | @character c isCharacter =>
      subst isCharacter
      refine ⟨_, closes_character c, fun isText => ?_⟩
      have same := congrArg (·.toList.length) (Option.some.inj isText)
      simp at same
  | @quoted text closed =>
      refine ⟨_, closes_quoted closed, fun isText => ?_⟩
      obtain ⟨inner, rfl, meant⟩ := exists_of_quoted closed
      have shorter := length_unescaped_le meant
      cases isText
      rw [String.toList_ofList, List.length_append, List.length_cons] at shorter
      omega
  | group opens closed =>
      refine ⟨_, closed, fun isText => ?_⟩
      cases (text?_of_group opens closed).symm.trans isText

theorem isBlank_of_isSpace {c : Char} (space : isSpace c = true) : Text.isBlank c = true := by
  simp only [isSpace, Bool.or_eq_true, beq_iff_eq] at space
  rcases space with (((rfl | rfl) | rfl) | rfl) | rfl <;> decide

theorem dropWhile_isSpace {chars : List Char} (trimmed : Text.trim chars = chars) :
    chars.dropWhile isSpace = chars := by
  cases chars with
  | nil => rfl
  | cons c rest =>
      refine List.dropWhile_cons_of_neg fun space => ?_
      cases (isBlank_of_isSpace space).symm.trans (Text.isBlank_head_of_trim trimmed)

theorem eq_nil_of_dropWhile {front rest : List Char}
    (trimmed : Text.trim (front ++ rest) = front ++ rest) (behind : rest.dropWhile isSpace = []) :
    rest = [] :=
  Text.eq_nil_of_trim trimmed fun c member =>
    isBlank_of_isSpace (List.dropWhile_eq_nil_iff.1 behind c member)

theorem typed_of_opener {c : Char} {behind : List Char} (isOpener : c ∈ openers)
    (trimmed : Text.trim (c :: behind) = c :: behind) {tree : Tree}
    (closed : Closes (c :: behind) tree) : Typed (c :: behind) := by
  have initial : ∀ c ∈ openers, isSpace c = false ∧ c ≠ 't' ∧ c ≠ 'f' :=
    List.all_iff_forall_prop.1 (by decide)
  obtain ⟨rest, ran, isSpace⟩ := (closes_iff_opened fun other isHead => by
    cases isHead
    exact initial c isOpener).1 closed
  simp only [openers, List.mem_cons, List.not_mem_nil, or_false] at isOpener
  rcases isOpener with rfl | rfl | rfl | rfl
  · exact .group (.inr rfl) closed
  · exact .group (.inl rfl) closed
  · obtain ⟨⟨text, rest'⟩, read, same⟩ :=
      Option.map_eq_some_iff.1 ((opened_quoted _ _ _).symm.trans ran)
    cases same
    obtain ⟨inner, whole, -⟩ := exists_of_quoted read
    rw [whole, List.append_cons] at trimmed
    rw [eq_nil_of_dropWhile trimmed isSpace] at read
    exact .quoted read
  · obtain ⟨⟨found, rest'⟩, read, same⟩ :=
      Option.map_eq_some_iff.1 ((opened_lone _ _ _).symm.trans ran)
    cases same
    have whole := eq_of_lone read
    rw [whole, List.append_cons] at trimmed
    rw [eq_nil_of_dropWhile trimmed isSpace] at whole
    exact .character whole

theorem typed_or_text {chars : List Char} (trimmed : Text.trim chars = chars) {tree : Tree}
    (closed : Closes chars tree) :
    Typed chars ∨ tree = .text .environment (String.ofList chars) := by
  by_cases bare : ∃ c ∈ chars.head?, c ∈ openers
  · obtain ⟨c, isHead, isOpener⟩ := bare
    obtain ⟨behind, rfl⟩ := List.head?_eq_some_iff.1 isHead
    exact .inl (typed_of_opener isOpener trimmed closed)
  · -- A word or the text up to its first mark is read, and what is left is nothing.
    obtain ⟨rest, ran, isSpace⟩ := closes_iff.1 closed
    rw [dropWhile_isSpace trimmed] at ran
    by_cases isTrue : "true".toList <+: chars
    · rw [core_true _ _ isTrue] at ran
      obtain ⟨behind, rfl⟩ := isTrue
      cases ran
      have none : behind = [] := eq_nil_of_dropWhile trimmed isSpace
      subst none
      exact .inl (.truth (.inl rfl))
    · by_cases isFalse : "false".toList <+: chars
      · rw [core_false _ _ isTrue isFalse] at ran
        obtain ⟨behind, rfl⟩ := isFalse
        cases ran
        have none : behind = [] := eq_nil_of_dropWhile trimmed isSpace
        subst none
        exact .inl (.truth (.inr rfl))
      · rw [core_opened _ _ isTrue isFalse, opened_bare _ _ (by simpa using bare)] at ran
        cases ran
        have whole := List.takeWhile_append_dropWhile (p := (!isMark ·)) (l := chars)
        have none : chars.dropWhile (!isMark ·) = [] :=
          eq_nil_of_dropWhile (by rw [whole, trimmed]) isSpace
        rw [none, List.append_nil] at whole
        rw [whole, trimmed]
        by_cases isNumber : NumberText chars
        · exact .inl (.number isNumber)
        · exact .inr (congrArg scalar (bareScalar_eq_text isNumber))

theorem Typed.number_of_head {chars : List Char} (typed : Typed chars) {c : Char}
    (isHead : chars.head? = some c) (known : c ∈ numberChars) : NumberText chars := by
  cases typed with
  | number isNumber => exact isNumber
  | truth isTruth =>
      rcases isTruth with rfl | rfl <;> cases isHead <;> exact absurd known (by decide)
  | character isCharacter =>
      subst isCharacter
      cases isHead
      exact absurd known (by decide)
  | quoted closed =>
      obtain ⟨inner, rfl, -⟩ := exists_of_quoted closed
      cases isHead
      exact absurd known (by decide)
  | group opens _ =>
      rcases opens with isOpener | isOpener <;> cases isOpener.symm.trans isHead <;>
        exact absurd known (by decide)

/-! ## Reading -/

theorem read_of_closes {text : String} {tree : Tree} (closed : Closes text.toList tree) :
    read text = tree := by
  have ran : (value (2 * text.length + 2)).run text.toList = some (tree, []) := closed
  rw [read, ran]

theorem source_of_closes {chars : List Char} {tree : Tree} (closed : Closes chars tree) :
    tree.source = .environment := by
  obtain ⟨rest, ran, -⟩ := closes_iff.1 closed
  by_cases isTrue : "true".toList <+: chars.dropWhile isSpace
  · rw [core_true _ _ isTrue] at ran
    cases ran
    rfl
  · by_cases isFalse : "false".toList <+: chars.dropWhile isSpace
    · rw [core_false _ _ isTrue isFalse] at ran
      cases ran
      rfl
    · rw [core_opened _ _ isTrue isFalse] at ran
      exact source_opened _ _ ran

theorem read_of_not_closes {text : String} (open_ : ∀ tree, ¬Closes text.toList tree) :
    read text = .text .environment text := by
  unfold read
  split
  · next tree ran => exact absurd ran (open_ tree)
  · rfl

theorem source_read (text : String) : (read text).source = .environment := by
  by_cases closes : ∃ tree, Closes text.toList tree
  · obtain ⟨tree, closed⟩ := closes
    rw [read_of_closes closed]
    exact source_of_closes closed
  · rw [read_of_not_closes (not_exists.1 closes)]
    rfl

theorem text?_read_ne {text : String} (typed : Typed text.toList) :
    (read text).text? ≠ some text := by
  obtain ⟨tree, closed, differs⟩ := closes_of_typed typed
  rw [String.ofList_toList] at differs
  rwa [read_of_closes closed]

theorem text?_read_number {text : String} (isNumber : NumberText text.toList) :
    (read text).text? = none := by
  rw [read_of_closes (closes_number isNumber)]
  exact text?_bareScalar isNumber

theorem read_eq_text {text : String} (trimmed : Text.trim text.toList = text.toList)
    (untyped : ¬Typed text.toList) : read text = .text .environment text := by
  by_cases closes : ∃ tree, Closes text.toList tree
  · obtain ⟨tree, closed⟩ := closes
    rw [read_of_closes closed, (typed_or_text trimmed closed).resolve_left untyped,
      String.ofList_toList]
  · exact read_of_not_closes (not_exists.1 closes)

theorem text?_read_iff {text : String} (trimmed : Text.trim text.toList = text.toList) :
    (read text).text? = some text ↔ ¬Typed text.toList := by
  constructor
  · exact fun same typed => text?_read_ne typed same
  · intro untyped
    rw [read_eq_text trimmed untyped]
    rfl

end Inline

end Bearer.Settings
