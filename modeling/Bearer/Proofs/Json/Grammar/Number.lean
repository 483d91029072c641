import Bearer.Proofs.Json.Number

namespace Bearer.Json

open Reader

/-! ## Parts of a number -/

def Digits (digits : Bytes) : Prop := digits ≠ [] ∧ ∀ byte ∈ digits, isDigit byte = true

inductive WholePart : Bytes → Prop where
  | zero : WholePart [48]
  | digits {first : UInt8} {more : Bytes} (nonzero : first ≠ 48) (digits : Digits (first :: more)) :
      WholePart (first :: more)

inductive Fraction : Bytes → Prop where
  | absent : Fraction []
  | present {digits : Bytes} (filled : Digits digits) : Fraction (46 :: digits)

inductive Exponent : Bytes → Prop where
  | absent : Exponent []
  | present {mark : UInt8} {sign digits : Bytes} (isMark : isExponentMark (some mark) = true)
      (isSign : sign = [] ∨ sign = [43] ∨ sign = [45]) (filled : Digits digits) :
      Exponent (mark :: (sign ++ digits))

def signOf (negative : Bool) : Bytes := if negative then [45] else []

inductive Decimal : Bytes → Prop where
  | intro (negative : Bool) {whole fraction exponent : Bytes} (isWhole : WholePart whole)
      (isFraction : Fraction fraction) (isExponent : Exponent exponent) :
      Decimal (signOf negative ++ (whole ++ (fraction ++ exponent)))

inductive NumberText : Bytes → Number → Bytes → Prop where
  | whole {value : Int} (fits : Whole value) (rest : Bytes) :
      NumberText (Utf8.encodeChars (Number.int value).text.toList ++ rest) (.int value) rest
  | floating {text : Bytes} {value : Binary64} (form : Decimal text)
      (means : number text = .ok (.float value, [])) (rest : Bytes) :
      NumberText (text ++ rest) (.float value) rest

/-! ## Where runs of digits stop -/

theorem Digits.head {digits : Bytes} (filled : Digits digits) :
    ∃ first more, digits = first :: more ∧ isDigit first = true := by
  obtain ⟨nonempty, all⟩ := filled
  obtain ⟨first, more, rfl⟩ := List.exists_cons_of_ne_nil nonempty
  exact ⟨first, more, rfl, all first List.mem_cons_self⟩

theorem isDigit_of_mark {mark : UInt8} (isMark : isExponentMark (some mark) = true) :
    isDigit mark = false := by
  have either : mark = 101 ∨ mark = 69 := by simpa [isExponentMark] using isMark
  rcases either with rfl | rfl <;> rfl

theorem Exponent.stops {exponent : Bytes} (isExponent : Exponent exponent) {rest : Bytes}
    (ends : Ends rest) : Stops (exponent ++ rest) := by
  cases isExponent with
  | absent => exact ends.stops
  | present isMark _ _ =>
      rintro byte ⟨⟩
      exact isDigit_of_mark isMark

theorem Fraction.stops {fraction exponent : Bytes} (isFraction : Fraction fraction)
    (isExponent : Exponent exponent) {rest : Bytes} (ends : Ends rest) :
    Stops (fraction ++ (exponent ++ rest)) := by
  cases isFraction with
  | absent => exact isExponent.stops ends
  | present _ =>
      rintro byte ⟨⟩
      rfl

/-! ## Results that do not depend on what follows -/

def Settles {α : Type} (read : Reader α) (front : Bytes) : Prop :=
  (∃ found, ∀ rest, Ends rest → read (front ++ rest) = .ok (found, rest)) ∨
    ∀ rest, Ends rest → ∃ fault, read (front ++ rest) = .error fault

theorem Settles.congr {α : Type} {read other : Reader α} {front front' : Bytes}
    (settles : Settles other front')
    (same : ∀ rest, Ends rest → read (front ++ rest) = other (front' ++ rest)) :
    Settles read front := by
  rcases settles with ⟨found, taken⟩ | refused
  · exact .inl ⟨found, fun rest ends => (same rest ends).trans (taken rest ends)⟩
  · refine .inr fun rest ends => ?_
    rw [same rest ends]
    exact refused rest ends

theorem settles_floating (negative : Bool) (significand : Nat) (exponent : Int) :
    Settles (floating negative significand exponent) [] := by
  unfold floating
  cases (Binary64.ofNat? significand).bind (scaled? 4 · exponent) with
  | some value => exact .inl ⟨_, fun rest _ => rfl⟩
  | none => exact .inr fun rest _ => ⟨_, rfl⟩

/-! ## Exponents -/

variable {negative : Bool} {significand : Nat} {start : Int} {sign : Option UInt8}

def exponentOf (negative : Bool) (significand : Nat) (start : Int) (sign : Option UInt8)
    (digits : Bytes) : Reader Number :=
  match exponentSize 0 digits with
  | .ok size =>
      floating negative significand (if sign = some 45 then start - size else start + size)
  | .error left =>
      if significand ≠ 0 ∧ sign ≠ some 45 then
        fun rest => .error ⟨.numberOutOfRange, rest.length + left⟩
      else return .float (Binary64.zero.withSign negative)

def exponentDigits (negative : Bool) (significand : Nat) (start : Int) (sign : Option UInt8) :
    Reader Number := do
  match ← peek with
  | none => fail .endOfValue
  | some byte =>
      if !isDigit byte then do
        skipOne
        fail .invalidNumber
      else exponentOf negative significand start sign (← digitRun)

theorem exponentPart_cons (mark : UInt8) (text : Bytes) :
    exponentPart negative significand start (mark :: text) =
      exponentDigits negative significand start text.head?
        (if text.head? = some 43 ∨ text.head? = some 45 then text.tail else text) := by
  simp only [exponentPart, skipOne_bind, List.tail_cons, peek_bind]
  split <;> rfl

theorem exponentDigits_eq {digits rest : Bytes} (filled : Digits digits) (stops : Stops rest) :
    exponentDigits negative significand start sign (digits ++ rest) =
      exponentOf negative significand start sign digits rest := by
  have run := digitRun_eq_ok_iff.2 ⟨rfl, filled.2, stops⟩
  obtain ⟨first, more, rfl, digit⟩ := filled.head
  rw [exponentDigits, peek_bind]
  simp only [List.cons_append, List.head?_cons, digit, Bool.not_true, Bool.false_eq_true, if_false]
  exact bind_read run _

theorem exponentDigits_sound {text rest : Bytes} {found : Number}
    (done : exponentDigits negative significand start sign text = .ok (found, rest)) :
    ∃ digits more, text = digits ++ more ∧ Digits digits ∧ Stops more ∧
      exponentOf negative significand start sign digits more = .ok (found, rest) := by
  cases text with
  | nil => cases done
  | cons byte text =>
      rw [exponentDigits, peek_bind] at done
      simp only [List.head?_cons] at done
      split at done
      · cases done
      · next digit =>
          obtain ⟨digits, more, run, done⟩ := bind_read_eq_ok.1 done
          obtain ⟨parts, all, stops⟩ := digitRun_eq_ok_iff.1 run
          refine ⟨digits, more, parts, ⟨?_, all⟩, stops, done⟩
          rintro rfl
          have head := stops byte (by rw [← List.nil_append more, ← parts]; rfl)
          simp [head] at digit

theorem settles_exponentOf (negative : Bool) (significand : Nat) (start : Int)
    (sign : Option UInt8) (digits : Bytes) :
    Settles (exponentOf negative significand start sign digits) [] := by
  unfold exponentOf
  split
  · exact settles_floating _ _ _
  · split
    · exact .inr fun rest _ => ⟨_, rfl⟩
    · exact .inl ⟨_, fun rest _ => rfl⟩

theorem floating_sound {exponent : Int} {text rest : Bytes} {found : Number}
    (done : floating negative significand exponent text = .ok (found, rest)) :
    text = rest ∧ ∃ value, found = .float value := by
  cases scaled : (Binary64.ofNat? significand).bind (scaled? 4 · exponent) with
  | some value =>
      rw [floating, scaled] at done
      cases done
      exact ⟨rfl, _, rfl⟩
  | none =>
      rw [floating, scaled] at done
      cases done

theorem exponentOf_sound {digits text rest : Bytes} {found : Number}
    (done : exponentOf negative significand start sign digits text = .ok (found, rest)) :
    text = rest ∧ ∃ value, found = .float value := by
  cases size : exponentSize 0 digits with
  | ok size =>
      rw [exponentOf, size] at done
      exact floating_sound done
  | error left =>
      simp only [exponentOf, size] at done
      split at done
      · cases done
      · cases done
        exact ⟨rfl, _, rfl⟩

theorem exponentPart_sound {mark : UInt8} (isMark : isExponentMark (some mark) = true)
    {text rest : Bytes} {found : Number}
    (done : exponentPart negative significand start (mark :: text) = .ok (found, rest)) :
    ∃ exponent, Exponent exponent ∧ mark :: text = exponent ++ rest ∧
      ∃ value, found = .float value := by
  rw [exponentPart_cons] at done
  obtain ⟨digits, more, parts, filled, -, done⟩ := exponentDigits_sound done
  obtain ⟨rfl, float⟩ := exponentOf_sound done
  split at parts
  · next signed =>
      cases text with
      | nil => simp at signed
      | cons byte text =>
          refine ⟨mark :: ([byte] ++ digits), .present isMark ?_ filled, ?_, float⟩
          · right
            simpa using signed
          · simp only [List.tail_cons] at parts
            simp [parts]
  · exact ⟨mark :: ([] ++ digits), .present isMark (.inl rfl) filled, by simp [parts], float⟩

theorem settles_exponentPart {sign digits : Bytes}
    (isSign : sign = [] ∨ sign = [43] ∨ sign = [45]) (filled : Digits digits) (mark : UInt8)
    (negative : Bool) (significand : Nat) (start : Int) :
    Settles (exponentPart negative significand start) (mark :: (sign ++ digits)) := by
  refine (settles_exponentOf negative significand start (sign ++ digits).head? digits).congr
    fun rest ends => ?_
  rw [List.cons_append, exponentPart_cons, List.nil_append]
  have eq (sign : Option UInt8) :=
    @exponentDigits_eq negative significand start sign _ _ filled ends.stops
  rcases isSign with rfl | rfl | rfl
  · obtain ⟨first, more, rfl, digit⟩ := filled.head
    have plain : ¬(first = 43 ∨ first = 45) := by
      rintro (rfl | rfl) <;> cases digit
    simpa [plain] using eq (some first)
  · exact eq (some 43)
  · exact eq (some 45)

/-! ## Fractions -/

def exponentOrNone (negative : Bool) (significand : Nat) (exponent : Int) : Reader Number := do
  if isExponentMark (← peek) then exponentPart negative significand exponent
  else floating negative significand exponent

theorem exponentOrNone_sound {exponent : Int} {text rest : Bytes} {found : Number}
    (done : exponentOrNone negative significand exponent text = .ok (found, rest)) :
    ∃ more, Exponent more ∧ text = more ++ rest ∧ ∃ value, found = .float value := by
  rw [exponentOrNone, peek_bind] at done
  split at done
  · next isMark =>
      cases text with
      | nil => cases isMark
      | cons mark text => exact exponentPart_sound isMark done
  · obtain ⟨rfl, float⟩ := floating_sound done
    exact ⟨[], .absent, rfl, float⟩

theorem settles_exponentOrNone {more : Bytes} (isExponent : Exponent more) (negative : Bool)
    (significand : Nat) (exponent : Int) :
    Settles (exponentOrNone negative significand exponent) more := by
  cases isExponent with
  | absent =>
      refine (settles_floating negative significand exponent).congr fun rest ends => ?_
      rw [List.nil_append, exponentOrNone, peek_bind, ends.isExponentMark]
      rfl
  | @present mark sign digits isMark isSign filled =>
      refine (settles_exponentPart isSign filled mark negative significand exponent).congr
        fun rest _ => ?_
      rw [List.cons_append, exponentOrNone, peek_bind, List.head?_cons, if_pos isMark]

theorem fractionPart_eq {digits rest : Bytes} (filled : Digits digits) (stops : Stops rest) :
    fractionPart negative significand start (46 :: (digits ++ rest)) =
      exponentOrNone negative (absorb significand digits).1
        (start - (digits.length - (absorb significand digits).2.length : Nat)) rest := by
  have run := digitRun_eq_ok_iff.2 ⟨rfl, filled.2, stops⟩
  have nonempty : digits.isEmpty = false := by simpa using filled.1
  rw [fractionPart, skipOne_bind, List.tail_cons, bind_read run, nonempty]
  rfl

theorem fractionPart_sound {text rest : Bytes} {found : Number}
    (done : fractionPart negative significand start (46 :: text) = .ok (found, rest)) :
    ∃ fraction exponent, Fraction fraction ∧ Exponent exponent ∧
      46 :: text = fraction ++ (exponent ++ rest) ∧ ∃ value, found = .float value := by
  have unfolded := done
  rw [fractionPart, skipOne_bind, List.tail_cons] at unfolded
  obtain ⟨digits, more, run, behind⟩ := bind_read_eq_ok.1 unfolded
  obtain ⟨rfl, all, stops⟩ := digitRun_eq_ok_iff.1 run
  have filled : Digits digits := by
    refine ⟨?_, all⟩
    rintro rfl
    rw [List.isEmpty_nil, if_pos rfl, peek_bind] at behind
    cases head : more.head? with
    | none =>
        rw [head] at behind
        cases behind
    | some byte =>
        rw [head] at behind
        cases behind
  rw [fractionPart_eq filled stops] at done
  obtain ⟨exponent, isExponent, rfl, float⟩ := exponentOrNone_sound done
  exact ⟨46 :: digits, exponent, .present filled, isExponent, rfl, float⟩

theorem settles_fractionPart {digits exponent : Bytes} (filled : Digits digits)
    (isExponent : Exponent exponent) (negative : Bool) (significand : Nat) (start : Int) :
    Settles (fractionPart negative significand start) (46 :: (digits ++ exponent)) := by
  refine (settles_exponentOrNone isExponent negative (absorb significand digits).1
    (start - (digits.length - (absorb significand digits).2.length : Nat))).congr fun rest ends => ?_
  rw [List.cons_append, List.append_assoc, fractionPart_eq filled (isExponent.stops ends)]

/-! ## Whole parts -/

inductive WholeResult (negative : Bool) (size : Nat) : Number → Prop where
  | plain (positive : negative = false) : WholeResult negative size (.int size)
  | signed (isNegative : negative = true) (nonzero : size ≠ 0) (fits : size ≤ 2 ^ 63) :
      WholeResult negative size (.int (-size))
  | float (value : Binary64) : WholeResult negative size (.float value)

theorem wholeNumber_sound {size : Nat} {text rest : Bytes} {found : Number}
    (done : wholeNumber negative size text = .ok (found, rest)) :
    text = rest ∧ WholeResult negative size found := by
  unfold wholeNumber at done
  split at done
  · next positive =>
      cases done
      exact ⟨rfl, .plain (by simpa using positive)⟩
  · next isNegative =>
      split at done
      · next fits =>
          cases done
          exact ⟨rfl, .signed (by simpa using isNegative) fits.1 fits.2⟩
      · obtain ⟨rfl, value, rfl⟩ := floating_sound done
        exact ⟨rfl, .float value⟩

theorem settles_wholeNumber (negative : Bool) (size : Nat) :
    Settles (wholeNumber negative size) [] := by
  unfold wholeNumber
  split
  · exact .inl ⟨_, fun rest _ => rfl⟩
  · split
    · exact .inl ⟨_, fun rest _ => rfl⟩
    · exact settles_floating _ _ _

theorem unsigned_sound {digits text rest : Bytes} {found : Number}
    (done : unsigned negative digits text = .ok (found, rest)) :
    (∃ fraction exponent, Fraction fraction ∧ Exponent exponent ∧
      text = fraction ++ (exponent ++ rest) ∧ ∃ value, found = .float value) ∨
    ∃ size, absorb 0 digits = (size, []) ∧ text = rest ∧ WholeResult negative size found := by
  simp only [unsigned, peek_bind] at done
  split at done
  · next point =>
      cases text with
      | nil => cases point
      | cons byte text =>
          cases point
          exact .inl (fractionPart_sound done)
  · split at done
    · next isMark =>
        cases text with
        | nil => cases isMark
        | cons mark text =>
            obtain ⟨exponent, isExponent, parts, float⟩ := exponentPart_sound isMark done
            exact .inl ⟨[], exponent, .absent, isExponent, parts, float⟩
    · split at done
      · next all =>
          obtain ⟨rfl, result⟩ := wholeNumber_sound done
          exact .inr ⟨_, Prod.ext rfl (List.isEmpty_iff.1 all), rfl, result⟩
      · obtain ⟨rfl, float⟩ := floating_sound done
        exact .inl ⟨[], [], .absent, .absent, rfl, float⟩

theorem settles_unsigned {fraction exponent : Bytes} (isFraction : Fraction fraction)
    (isExponent : Exponent exponent) (negative : Bool) (digits : Bytes) :
    Settles (unsigned negative digits) (fraction ++ exponent) := by
  cases isFraction with
  | present filled =>
      refine (settles_fractionPart filled isExponent negative (absorb 0 digits).1
        (absorb 0 digits).2.length).congr fun rest _ => ?_
      simp [unsigned]
  | absent =>
      cases isExponent with
      | @present mark sign size isMark isSign filled =>
          have notPoint : mark ≠ 46 := by
            rintro rfl
            cases isMark
          refine (settles_exponentPart isSign filled mark negative (absorb 0 digits).1
            (absorb 0 digits).2.length).congr fun rest _ => ?_
          simp [unsigned, isMark, notPoint]
      | absent =>
          have plain (rest : Bytes) (ends : Ends rest) : unsigned negative digits rest =
              if (absorb 0 digits).2.isEmpty then wholeNumber negative (absorb 0 digits).1 rest
              else floating negative (absorb 0 digits).1 (absorb 0 digits).2.length rest := by
            simp only [unsigned, peek_bind, ends.head_ne, ends.isExponentMark, if_false,
              Bool.false_eq_true]
            split <;> rfl
          cases all : (absorb 0 digits).2.isEmpty with
          | true =>
              exact (settles_wholeNumber negative (absorb 0 digits).1).congr fun rest ends => by
                simp only [List.nil_append, plain rest ends, all, if_true]
          | false =>
              exact (settles_floating negative (absorb 0 digits).1
                (absorb 0 digits).2.length).congr fun rest ends => by
                  simp only [List.nil_append, plain rest ends, all, if_false, Bool.false_eq_true]

theorem digitsAndMore_eq {whole rest : Bytes} (isWhole : WholePart whole) (stops : Stops rest) :
    digitsAndMore negative (whole ++ rest) = unsigned negative whole rest := by
  cases isWhole with
  | zero =>
      change digitsAndMore negative (48 :: rest) = _
      simp only [digitsAndMore, next?_bind, List.head?_cons, List.tail_cons, if_true, peek_bind]
      cases head : rest.head? with
      | none => rfl
      | some byte => simp [stops byte head]
  | digits nonzero filled =>
      have digit := filled.2 _ List.mem_cons_self
      have run := digitRun_eq_ok_iff.2
        ⟨rfl, fun byte member => filled.2 byte (List.mem_cons_of_mem _ member), stops⟩
      simp only [digitsAndMore, List.cons_append, next?_bind, List.head?_cons, List.tail_cons,
        nonzero, if_false, digit, if_true]
      rw [bind_read run]

theorem digitsAndMore_sound {text rest : Bytes} {found : Number}
    (done : digitsAndMore negative text = .ok (found, rest)) :
    ∃ whole more, WholePart whole ∧ Stops more ∧ text = whole ++ more ∧
      unsigned negative whole more = .ok (found, rest) := by
  cases text with
  | nil => cases done
  | cons byte text =>
      simp only [digitsAndMore, next?_bind, List.head?_cons, List.tail_cons] at done
      split at done
      · next isZero =>
          subst isZero
          rw [peek_bind] at done
          cases head : text.head? with
          | none =>
              rw [head] at done
              refine ⟨[48], text, .zero, fun byte other => ?_, rfl, done⟩
              rw [head] at other
              cases other
          | some byte =>
              rw [head] at done
              simp only at done
              split at done
              · cases done
              · next notDigit =>
                  refine ⟨[48], text, .zero, fun other same => ?_, rfl, done⟩
                  rw [head] at same
                  cases same
                  simpa using notDigit
      · next nonzero =>
          split at done
          · next digit =>
              obtain ⟨digits, more, run, behind⟩ := bind_read_eq_ok.1 done
              obtain ⟨rfl, all, stops⟩ := digitRun_eq_ok_iff.1 run
              refine ⟨byte :: digits, more, .digits nonzero ⟨List.cons_ne_nil _ _, ?_⟩, stops, rfl,
                behind⟩
              exact List.forall_mem_cons.2 ⟨digit, all⟩
          · cases done

/-! ## Numbers -/

theorem WholePart.head {whole : Bytes} (isWhole : WholePart whole) :
    ∃ first more, whole = first :: more ∧ isDigit first = true := by
  cases isWhole with
  | zero => exact ⟨48, [], rfl, rfl⟩
  | digits _ filled => exact ⟨_, _, rfl, filled.2 _ List.mem_cons_self⟩

theorem number_plain {whole : Bytes} (isWhole : WholePart whole) (rest : Bytes) :
    number (whole ++ rest) = digitsAndMore false (whole ++ rest) := by
  obtain ⟨first, more, rfl, digit⟩ := isWhole.head
  refine number_unsigned _ ?_
  rintro rfl
  cases digit

theorem settles_number {text : Bytes} (decimal : Decimal text) : Settles number text := by
  obtain @⟨negative, whole, fraction, exponent, isWhole, isFraction, isExponent⟩ := decimal
  refine (settles_unsigned isFraction isExponent negative whole).congr fun rest ends => ?_
  rw [← digitsAndMore_eq isWhole (by simpa using isFraction.stops isExponent ends)]
  cases negative with
  | false => simpa [signOf] using number_plain isWhole (fraction ++ (exponent ++ rest))
  | true => simp [signOf, number_signed]

theorem number_split {text rest : Bytes} {found : Number}
    (done : number text = .ok (found, rest)) :
    ∃ negative whole more, WholePart whole ∧ text = signOf negative ++ (whole ++ more) ∧
      unsigned negative whole more = .ok (found, rest) := by
  cases text with
  | nil => cases done
  | cons byte text =>
      by_cases minus : byte = 45
      · subst minus
        rw [number_signed] at done
        obtain ⟨whole, more, isWhole, -, rfl, behind⟩ := digitsAndMore_sound done
        exact ⟨true, whole, more, isWhole, rfl, behind⟩
      · rw [number_unsigned text minus] at done
        obtain ⟨whole, more, isWhole, -, parts, behind⟩ := digitsAndMore_sound done
        exact ⟨false, whole, more, isWhole, parts, behind⟩

/-! ## Integers -/

theorem encodeChars_toDigits_small {value : Nat} (small : value < 10) :
    Utf8.encodeChars (Nat.toDigits 10 value) = [UInt8.ofNat (48 + value)] := by
  revert value
  decide

theorem encodeChars_toDigits_digitOf {byte : UInt8} (digit : isDigit byte = true) :
    Utf8.encodeChars (Nat.toDigits 10 (digitOf byte)) = [byte] := by
  have bounds := isDigit_iff.1 digit
  rw [encodeChars_toDigits_small (by rw [digitOf]; omega), digitOf, Nat.add_sub_cancel' bounds.1,
    UInt8.ofNat_toNat]

theorem absorb_written {start size : Nat} {digits : Bytes} (positive : 0 < start)
    (all : ∀ byte ∈ digits, isDigit byte = true) (done : absorb start digits = (size, [])) :
    Utf8.encodeChars (Nat.toDigits 10 start) ++ digits =
      Utf8.encodeChars (Nat.toDigits 10 size) := by
  induction digits generalizing start with
  | nil =>
      cases done
      rw [List.append_nil]
  | cons byte digits ih =>
      have digit := all byte List.mem_cons_self
      have small : digitOf byte < 10 := by
        have bounds := isDigit_iff.1 digit
        rw [digitOf]
        omega
      rw [absorb] at done
      split at done
      · have others := ih (by omega) (fun other member => all other (List.mem_cons_of_mem _ member))
          done
        rw [← others, Nat.mul_comm, ← Nat.toDigits_append_toDigits (by decide) positive small,
          Utf8.encodeChars_append, encodeChars_toDigits_digitOf digit, List.append_assoc,
          List.singleton_append]
      · cases done

theorem WholePart.eq_written {whole : Bytes} (isWhole : WholePart whole) {size : Nat}
    (done : absorb 0 whole = (size, [])) : whole = Utf8.encodeChars (Nat.toDigits 10 size) := by
  cases isWhole with
  | zero =>
      cases done
      rfl
  | @digits first more nonzero filled =>
      have digit := filled.2 first List.mem_cons_self
      have bounds := isDigit_iff.1 digit
      have positive : 0 < digitOf first := by
        have other : first.toNat ≠ 48 := fun same => nonzero (UInt8.toNat_inj.1 same)
        rw [digitOf]
        omega
      rw [absorb] at done
      simp only [Nat.zero_mul, Nat.zero_add] at done
      split at done
      · have others := absorb_written positive
          (fun byte member => filled.2 byte (List.mem_cons_of_mem _ member)) done
        rw [← others, encodeChars_toDigits_digitOf digit, List.singleton_append]
      · cases done

theorem absorb_lt {start size : Nat} {digits : Bytes} (small : start < 2 ^ 64)
    (done : absorb start digits = (size, [])) : size < 2 ^ 64 := by
  induction digits generalizing start with
  | nil =>
      cases done
      exact small
  | cons byte digits ih =>
      rw [absorb] at done
      split at done
      · next fits => exact ih fits done
      · cases done

theorem text_of_number {text rest : Bytes} {value : Int}
    (done : number text = .ok (.int value, rest)) : NumberText text (.int value) rest := by
  obtain ⟨negative, whole, more, isWhole, rfl, behind⟩ := number_split done
  rcases unsigned_sound behind with ⟨_, _, -, -, -, _, ⟨⟩⟩ | ⟨size, absorbed, rfl, result⟩
  have digits := isWhole.eq_written absorbed
  have small := absorb_lt (by decide) absorbed
  subst digits
  cases result with
  | plain positive =>
      subst positive
      have text := toList_text_nonneg (Int.natCast_nonneg size)
      rw [Int.toNat_natCast] at text
      have written := @NumberText.whole size ⟨by omega, by omega⟩ more
      rw [text] at written
      exact written
  | signed isNegative nonzero fits =>
      subst isNegative
      have text := @toList_text_negative (-size) (by omega)
      rw [Int.neg_neg, Int.toNat_natCast] at text
      have written := @NumberText.whole (-size) ⟨by omega, by omega⟩ more
      rw [text, Utf8.encodeChars_cons] at written
      exact written

theorem decimal_of_number {text rest : Bytes} {found : Number}
    (done : number text = .ok (found, rest)) : ∃ front, Decimal front ∧ text = front ++ rest := by
  obtain ⟨negative, whole, more, isWhole, rfl, behind⟩ := number_split done
  rcases unsigned_sound behind with
    ⟨fraction, exponent, isFraction, isExponent, rfl, -⟩ | ⟨size, -, rfl, -⟩
  · exact ⟨_, .intro negative isWhole isFraction isExponent, by simp⟩
  · exact ⟨_, .intro negative isWhole .absent .absent, by simp⟩

theorem number_eq_ok_iff {text rest : Bytes} {found : Number} (ends : Ends rest) :
    number text = .ok (found, rest) ↔ NumberText text found rest := by
  constructor
  · intro done
    cases found with
    | int value => exact text_of_number done
    | float value =>
        obtain ⟨front, form, rfl⟩ := decimal_of_number done
        rcases settles_number form with ⟨found, taken⟩ | refused
        · have alone := taken [] ends_nil
          have same := (taken rest ends).symm.trans done
          cases same
          rw [List.append_nil] at alone
          exact .floating form alone rest
        · obtain ⟨fault, failed⟩ := refused rest ends
          cases failed.symm.trans done
  · rintro (⟨fits, rest⟩ | ⟨form, means, rest⟩)
    · exact number_read fits ends
    · rcases settles_number form with ⟨found, taken⟩ | refused
      · have alone := taken [] ends_nil
        rw [List.append_nil] at alone
        cases alone.symm.trans means
        exact taken rest ends
      · obtain ⟨fault, failed⟩ := refused [] ends_nil
        rw [List.append_nil] at failed
        cases failed.symm.trans means

theorem NumberText.front {text rest : Bytes} {held : Number} (form : NumberText text held rest) :
    ∃ front, text = front ++ rest ∧ number front = .ok (held, []) := by
  cases form with
  | whole fits rest =>
      have read := number_read fits ends_nil
      rw [List.append_nil] at read
      exact ⟨_, rfl, read⟩
  | floating form means rest => exact ⟨_, rfl, means⟩

/-! ## First bytes -/

theorem Decimal.head {text : Bytes} (decimal : Decimal text) :
    ∃ byte tail, text = byte :: tail ∧ startsNumber byte = true := by
  obtain ⟨negative, isWhole, -, -⟩ := decimal
  cases negative with
  | true => exact ⟨45, _, rfl, rfl⟩
  | false =>
      obtain ⟨first, more, rfl, digit⟩ := isWhole.head
      exact ⟨first, _, rfl, by rw [startsNumber, digit, Bool.or_true]⟩

theorem NumberText.head {text rest : Bytes} {held : Number} (form : NumberText text held rest) :
    ∃ byte tail, text = byte :: tail ∧ startsNumber byte = true := by
  cases form with
  | whole fits rest =>
      obtain ⟨byte, tail, text, starts⟩ := number_head _
      exact ⟨byte, tail ++ rest, by rw [text, List.cons_append], starts⟩
  | floating form means rest =>
      obtain ⟨byte, tail, rfl, starts⟩ := form.head
      exact ⟨byte, tail ++ rest, List.cons_append .., starts⟩

theorem NumberText.whole_of_int {text rest : Bytes} {value : Int}
    (form : NumberText text (.int value) rest) : Whole value := by
  cases form with
  | whole fits => exact fits

end Bearer.Json
