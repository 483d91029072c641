import Bearer.Proofs.Text.Integer
import Bearer.Time.Duration
import Mathlib.Data.Bool.AllAny

namespace Bearer.Duration

/-! ## Units -/

inductive UnitText : TimeUnit → List Char → Prop where
  | milliseconds : UnitText .milliseconds ['m', 's']
  | seconds : UnitText .seconds ['s']
  | bare : UnitText .seconds []
  | minutes : UnitText .minutes ['m']
  | hours : UnitText .hours ['h']

theorem unitText_of_splitUnit {chars number : List Char} {unit : TimeUnit}
    (isSplit : splitUnit chars = (number, unit)) :
    ∃ suffix, UnitText unit suffix ∧ chars = number ++ suffix := by
  have whole (back : List Char) {rest : List Char} (reversed : chars.reverse = back ++ rest) :
      chars = rest.reverse ++ back.reverse := by
    rw [← List.reverse_append, ← reversed, List.reverse_reverse]
  unfold splitUnit at isSplit
  split at isSplit
  · next rest reversed =>
      cases isSplit
      exact ⟨_, .milliseconds, whole ['s', 'm'] reversed⟩
  · next rest _ reversed =>
      cases isSplit
      exact ⟨_, .seconds, whole ['s'] reversed⟩
  · next rest reversed =>
      cases isSplit
      exact ⟨_, .minutes, whole ['m'] reversed⟩
  · next rest reversed =>
      cases isSplit
      exact ⟨_, .hours, whole ['h'] reversed⟩
  · cases isSplit
    exact ⟨_, .bare, (List.append_nil _).symm⟩

def unitLetters : List Char := ['s', 'm', 'h']

theorem splitUnit_append {number suffix : List Char} {unit : TimeUnit}
    (isUnit : UnitText unit suffix) (noLetter : ∀ c ∈ number, c ∉ unitLetters) :
    splitUnit (number ++ suffix) = (number, unit) := by
  have last {c : Char} {rest : List Char} (reversed : number.reverse = c :: rest) :
      c ∉ unitLetters := by
    refine noLetter c (List.mem_reverse.1 ?_)
    rw [reversed]
    exact List.mem_cons_self
  unfold splitUnit
  rw [List.reverse_append]
  cases isUnit with
  | milliseconds => simp
  | minutes => simp
  | hours => simp
  | seconds =>
      -- A letter in front of the last one would make milliseconds of them.
      cases reversed : number.reverse with
      | nil => simpa using (List.reverse_eq_nil_iff.1 reversed).symm
      | cons c rest =>
          have back : (c :: rest).reverse = number := by rw [← reversed, List.reverse_reverse]
          have notM : c ≠ 'm' := fun isM => last reversed (by simp [isM, unitLetters])
          simp [notM, ← back]
  | bare =>
      cases reversed : number.reverse with
      | nil => simp
      | cons c rest =>
          have others := last reversed
          simp only [unitLetters, List.mem_cons, List.not_mem_nil, or_false, not_or] at others
          simp [others.1, others.2.1, others.2.2]

theorem notMem_unitLetters_digit {c : Char} (digit : c.isDigit = true) : c ∉ unitLetters := by
  intro letter
  have noDigit : ∀ other ∈ unitLetters, other.isDigit = false :=
    List.all_iff_forall_prop.1 (by decide)
  rw [noDigit c letter] at digit
  cases digit

/-! ## Reading -/

def Counts (text : String) (count : Nat) (unit : TimeUnit) : Prop :=
  ∃ digits, splitUnit (Text.trim text.toList) = (digits, unit) ∧
    Text.natural limit digits = .ok count

def ofCount (count : Nat) (unit : TimeUnit) : Duration :=
  if unit = .milliseconds then ofMillis count else ⟨count * unit.inSeconds, 0⟩

theorem parse_of_counts {text : String} {count : Nat} {unit : TimeUnit}
    (counts : Counts text count unit) : parse text =
      if count * unit.inSeconds < limit then .ok (ofCount count unit)
      else .error (.tooLarge (String.ofList (Text.trim text.toList))) := by
  obtain ⟨digits, isSplit, read⟩ := counts
  simp only [parse, isSplit, read, ofCount]
  by_cases isMillis : unit = .milliseconds
  · have fits : count * unit.inSeconds < limit := by
      rw [isMillis]
      exact Nat.pow_pos (by decide)
    rw [if_pos isMillis, if_pos isMillis, if_pos fits]
  · rw [if_neg isMillis, if_neg isMillis]

theorem parse_eq_ok_iff {text : String} {duration : Duration} :
    parse text = .ok duration ↔ ∃ count unit, Counts text count unit ∧
      count * unit.inSeconds < limit ∧ duration = ofCount count unit := by
  constructor
  · intro done
    cases isSplit : splitUnit (Text.trim text.toList) with
    | mk digits unit =>
        cases read : Text.natural limit digits with
        | error fault =>
            simp only [parse, isSplit, read] at done
            cases done
        | ok count =>
            have counts : Counts text count unit := ⟨digits, isSplit, read⟩
            rw [parse_of_counts counts] at done
            split_ifs at done with fits
            cases done
            exact ⟨count, unit, counts, fits, rfl⟩
  · rintro ⟨count, unit, counts, fits, rfl⟩
    rw [parse_of_counts counts, if_pos fits]

theorem seconds_lt_of_parse {text : String} {duration : Duration}
    (parsed : parse text = .ok duration) : duration.seconds < limit := by
  obtain ⟨count, unit, ⟨digits, -, read⟩, fits, rfl⟩ := parse_eq_ok_iff.1 parsed
  unfold ofCount
  split_ifs with isMillis
  · have small := Text.lt_of_natural (Nat.pow_pos (by decide)) read
    exact Nat.lt_of_le_of_lt (Nat.div_le_self count 1000) small
  · exact fits

theorem nanos_ofCount_ne_zero_iff {count : Nat} {unit : TimeUnit} :
    (ofCount count unit).nanos ≠ 0 ↔ unit = .milliseconds ∧ count % 1000 ≠ 0 := by
  unfold ofCount
  split_ifs with isMillis
  · simp only [ofMillis, isMillis, true_and]
    omega
  · simp [isMillis]

theorem nanos_ne_zero_iff {text : String} {duration : Duration}
    (parsed : parse text = .ok duration) : duration.nanos ≠ 0 ↔
      ∃ count, Counts text count .milliseconds ∧ count % 1000 ≠ 0 := by
  obtain ⟨count, unit, counts, -, rfl⟩ := parse_eq_ok_iff.1 parsed
  rw [nanos_ofCount_ne_zero_iff]
  constructor
  · rintro ⟨rfl, broken⟩
    exact ⟨count, counts, broken⟩
  · rintro ⟨other, ⟨digits, isSplit, read⟩, broken⟩
    obtain ⟨same, isSplit', read'⟩ := counts
    cases isSplit.symm.trans isSplit'
    cases read.symm.trans read'
    exact ⟨rfl, broken⟩

/-! ## Writing -/

def whole (duration : Duration) : Duration := ⟨duration.seconds, 0⟩

theorem whole_eq_self_iff {duration : Duration} : duration.whole = duration ↔ duration.nanos = 0 := by
  cases duration
  simp [whole, eq_comm]

theorem toList_text (duration : Duration) :
    duration.text.toList = Nat.toDigits 10 duration.seconds ++ ['s'] := by
  simp [text, toString]

theorem counts_text {duration : Duration} (fits : duration.seconds < limit) :
    Counts duration.text duration.seconds .seconds := by
  have all : ∀ c ∈ Nat.toDigits 10 duration.seconds, c.isDigit = true :=
    fun c => Text.isDigit_of_mem_toDigits
  have solid : ∀ c ∈ duration.text.toList, Text.isBlank c = false := by
    intro c member
    rw [toList_text] at member
    rcases List.mem_append.1 member with digit | unit
    · exact Text.isBlank_digit (all c digit)
    · obtain rfl := List.mem_singleton.1 unit
      decide
  refine ⟨Nat.toDigits 10 duration.seconds, ?_, Text.natural_toDigits fits⟩
  have noLetter : ∀ c ∈ Nat.toDigits 10 duration.seconds, c ∉ unitLetters :=
    fun c member => notMem_unitLetters_digit (all c member)
  rw [Text.trim_solid solid, toList_text, splitUnit_append .seconds noLetter]

theorem parse_text {duration : Duration} (fits : duration.seconds < limit) :
    parse duration.text = .ok duration.whole := by
  have sized : duration.seconds * TimeUnit.seconds.inSeconds = duration.seconds := Nat.mul_one _
  refine parse_eq_ok_iff.2 ⟨_, _, counts_text fits, ?_, ?_⟩
  · rwa [sized]
  · rw [ofCount, if_neg (by decide), sized]
    rfl

end Bearer.Duration
