import Bearer.Proofs.Json.Grammar.Object
import Bearer.Token.Claims

namespace Bearer.Claims

open Json Json.Reader

def Step (before : Draft) (name : String) (held : Value) (after : Draft) : Prop :=
  if name = "iss" then before.iss = none ∧
    ∃ issuer, Nullable held issuer ∧ after = { before with iss := some issuer }
  else if name = "iat" then before.iat = none ∧
    ∃ second, IsInt64 held second ∧ after = { before with iat := some second }
  else if name = "exp" then before.exp = none ∧
    ∃ second, IsInt64 held second ∧ after = { before with exp := some second }
  else after = { before with extra := before.extra.insert name held }

theorem member_follows : Follows member (ValueText (maxDepth - 1)) Step := by
  intro before after name text rest ends
  unfold member Step
  by_cases isIss : name = "iss"
  · simp only [if_pos isIss]
    exact once_step_eq_ok_iff (fun iss => { before with iss }) nullable_string_eq_ok_iff
  · by_cases isIat : name = "iat"
    · simp only [if_neg isIss, if_pos isIat]
      exact once_step_eq_ok_iff (fun iat => { before with iat }) (int64_eq_ok_iff ends)
    · by_cases isExp : name = "exp"
      · simp only [if_neg isIss, if_neg isIat, if_pos isExp]
        exact once_step_eq_ok_iff (fun exp => { before with exp }) (int64_eq_ok_iff ends)
      · simp only [if_neg isIss, if_neg isIat, if_neg isExp]
        have follows : Follows _ (ValueText (maxDepth - 1)) (Becomes fun (before : Draft) name held =>
            { before with extra := before.extra.insert name held }) :=
          follows_becomes value_eq_ok_iff
        exact follows before after name text rest ends

theorem read_eq_ok_iff {text : Bytes} {claims : Claims} : read text = .ok claims ↔
    ∃ members draft, ObjectText text members ∧ Steps Step ⟨none, none, none, []⟩ members draft ∧
      claims = ofDraft draft :=
  run_object_eq_ok_iff member_follows

/-! ## Fields of their own -/

theorem step_cases {before after : Draft} {name : String} {held : Value}
    (here : Step before name held after) :
    (name = "iss" ∧ before.iss = none ∧
      ∃ issuer, Nullable held issuer ∧ after = { before with iss := some issuer }) ∨
    (name = "iat" ∧ before.iat = none ∧
      ∃ second, IsInt64 held second ∧ after = { before with iat := some second }) ∨
    (name = "exp" ∧ before.exp = none ∧
      ∃ second, IsInt64 held second ∧ after = { before with exp := some second }) ∨
    (isReserved name = false ∧ after = { before with extra := before.extra.insert name held }) := by
  unfold Step at here
  split_ifs at here with isIss isIat isExp
  · exact .inl ⟨isIss, here⟩
  · exact .inr (.inl ⟨isIat, here⟩)
  · exact .inr (.inr (.inl ⟨isExp, here⟩))
  · exact .inr (.inr (.inr ⟨by simp [isReserved, isIss, isIat, isExp], here⟩))

theorem fillsOnce_iss : FillsOnce Step "iss" Draft.iss Nullable where
  own here := by
    obtain ⟨empty, issuer, isName, rfl⟩ := here
    exact ⟨empty, issuer, isName, rfl⟩
  other here differs := by
    rcases step_cases here with ⟨same, -⟩ | ⟨-, -, _, -, rfl⟩ | ⟨-, -, _, -, rfl⟩ | ⟨-, rfl⟩
    · exact absurd same differs
    all_goals rfl

theorem fillsOnce_iat : FillsOnce Step "iat" Draft.iat IsInt64 where
  own here := by
    obtain ⟨empty, second, isTime, rfl⟩ := here
    exact ⟨empty, second, isTime, rfl⟩
  other here differs := by
    rcases step_cases here with ⟨-, -, _, -, rfl⟩ | ⟨same, -⟩ | ⟨-, -, _, -, rfl⟩ | ⟨-, rfl⟩
    · rfl
    · exact absurd same differs
    all_goals rfl

theorem fillsOnce_exp : FillsOnce Step "exp" Draft.exp IsInt64 where
  own here := by
    obtain ⟨empty, second, isTime, rfl⟩ := here
    exact ⟨empty, second, isTime, rfl⟩
  other here differs := by
    rcases step_cases here with ⟨-, -, _, -, rfl⟩ | ⟨-, -, _, -, rfl⟩ | ⟨same, -⟩ | ⟨-, rfl⟩
    · rfl
    · rfl
    · exact absurd same differs
    · rfl

/-! ## The expiry -/

/-- What a text says of the expiry: it is one object, and the only member named so is an integer of
64 bits, or there is no such member. -/
inductive ExpiryText (text : Bytes) : Option Int → Prop where
  | given {members : List (String × Value)} {held : Value} {second : Int}
      (form : ObjectText text members) (only : valuesOf "exp" members = [held])
      (isTime : IsInt64 held second) : ExpiryText text (some second)
  | absent {members : List (String × Value)} (form : ObjectText text members)
      (missing : valuesOf "exp" members = []) : ExpiryText text none

theorem expiryText_of_read {text : Bytes} {claims : Claims} (done : read text = .ok claims) :
    ExpiryText text claims.exp := by
  obtain ⟨members, draft, form, steps, rfl⟩ := read_eq_ok_iff.1 done
  rcases fillsOnce_exp.steps steps with ⟨missing, kept⟩ | ⟨held, second, only, -, isTime, filled⟩
  · rw [ofDraft, kept]
    exact .absent form missing
  · rw [ofDraft, filled]
    exact .given form only isTime

/-- Values that give no expiry: a single one that is no integer of 64 bits, be it `null`, a floating
point number, a string or an integer that is too large, or several of any kind. -/
def Spoils : List Value → Prop
  | [] => False
  | [held] => ∀ second, ¬IsInt64 held second
  | _ :: _ :: _ => True

theorem not_expiryText {text : Bytes} {members : List (String × Value)}
    (form : ObjectText text members) (spoils : Spoils (valuesOf "exp" members)) (exp : Option Int) :
    ¬ExpiryText text exp := by
  rintro (⟨other, only, isTime⟩ | ⟨other, missing⟩)
  · rw [form.unique other, only] at spoils
    exact spoils _ isTime
  · rw [form.unique other, missing] at spoils
    exact spoils

end Bearer.Claims
