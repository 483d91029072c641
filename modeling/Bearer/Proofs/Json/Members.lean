import Bearer.Proofs.Json.Number
import Bearer.Proofs.Json.Text

namespace Bearer.Json.Reader

variable {σ : Type}

structure Layout where
  lead : Bytes
  gap : Bytes
  blank_lead : Blank lead
  blank_gap : Blank gap

namespace Layout

def compact : Layout := ⟨[], [], blank_nil, blank_nil⟩

def member (layout : Layout) (name : String) (value : Value) : Bytes :=
  layout.lead ++ quote :: (quotedBytes name ++ colon :: (layout.gap ++ Utf8.encodeChars value.chars))

def following (layout : Layout) : List (String × Value) → Bytes
  | [] => []
  | (name, value) :: members => comma :: (layout.member name value ++ layout.following members)

def members (layout : Layout) : List (String × Value) → Bytes
  | [] => []
  | (name, value) :: members => layout.member name value ++ layout.following members

theorem length_following_le (layout : Layout) (members : List (String × Value)) :
    members.length ≤ (layout.following members).length := by
  induction members with
  | nil => exact Nat.le_refl 0
  | cons member members ih =>
      simp only [following, List.length_cons, List.length_append]
      omega

theorem length_members_le (layout : Layout) (members : List (String × Value)) :
    members.length ≤ (layout.members members).length := by
  cases members with
  | nil => exact Nat.le_refl 0
  | cons first members =>
      have others := layout.length_following_le members
      simp only [Layout.members, member, List.length_append, List.length_cons]
      omega

end Layout

/-! ## Ends of values -/

theorem ends_blank {blanks rest : Bytes} (blank : Blank blanks) (ends : Ends rest) :
    Ends (blanks ++ rest) := by
  cases blanks with
  | nil => exact ends
  | cons byte blanks =>
      have isBlank_byte := blank byte List.mem_cons_self
      simp only [isBlank, Bool.or_eq_true, beq_iff_eq] at isBlank_byte
      apply ends_cons
      rcases isBlank_byte with ((rfl | rfl) | rfl) | rfl <;> decide

theorem ends_following (layout : Layout) (members : List (String × Value)) {trail rest : Bytes}
    (blank : Blank trail) : Ends (layout.following members ++ (trail ++ closeBrace :: rest)) := by
  cases members with
  | nil =>
      rw [Layout.following, List.nil_append]
      exact ends_blank blank (ends_cons (by decide))
  | cons member members =>
      obtain ⟨name, value⟩ := member
      rw [Layout.following]
      exact ends_cons (by decide)

/-! ## One member after the other -/

inductive Takes (member : σ → String → Reader σ) (gap : Bytes) :
    σ → List (String × Value) → σ → Prop where
  | nil (state : σ) : Takes member gap state [] state
  | cons {before between after : σ} {name : String} {value : Value}
      {members : List (String × Value)}
      (taken : ∀ rest, Ends rest →
        member before name (colon :: (gap ++ (Utf8.encodeChars value.chars ++ rest))) =
          .ok (between, rest))
      (more : Takes member gap between members after) :
      Takes member gap before ((name, value) :: members) after

theorem Takes.append {member : σ → String → Reader σ} {gap : Bytes} {before between after : σ}
    {left right : List (String × Value)} (first : Takes member gap before left between)
    (second : Takes member gap between right after) :
    Takes member gap before (left ++ right) after := by
  induction first with
  | nil => exact second
  | cons taken _ ih => exact .cons taken (ih second)

variable {member : σ → String → Reader σ}

theorem foldMembers_end {rounds : Nat} {first : Bool} {text rest : Bytes}
    (asked : moreMembers first text = .ok (false, rest)) (state : σ) :
    foldMembers member (rounds + 1) first state text = .ok (state, rest) := by
  rw [foldMembers, bind_read asked]
  rfl

theorem foldMembers_round {rounds : Nat} {first : Bool} {before between : σ}
    {text named behind rest : Bytes} {name : String}
    (asked : moreMembers first text = .ok (true, named))
    (isName : Reader.name named = .ok (name, behind))
    (taken : member before name behind = .ok (between, rest)) :
    foldMembers member (rounds + 1) first before text =
      foldMembers member rounds false between rest := by
  rw [foldMembers, bind_read asked, if_pos rfl, bind_read isName, bind_read taken]

theorem foldMembers_following (layout : Layout) {before after : σ} {members : List (String × Value)}
    (takes : Takes member layout.gap before members after) {trail : Bytes} (blank : Blank trail)
    (rest : Bytes) {rounds : Nat} (enough : members.length < rounds) :
    foldMembers member rounds false before
      (layout.following members ++ (trail ++ closeBrace :: rest)) =
        .ok (after, closeBrace :: rest) := by
  induction takes generalizing rounds with
  | nil state =>
      obtain ⟨rounds, rfl⟩ := Nat.exists_eq_succ_of_ne_zero (Nat.ne_zero_of_lt enough)
      exact foldMembers_end (moreMembers_close false rest blank) state
  | @cons before between after name value members taken more ih =>
      obtain ⟨rounds, rfl⟩ := Nat.exists_eq_succ_of_ne_zero (Nat.ne_zero_of_lt enough)
      have read := ih (Nat.lt_of_succ_lt_succ enough)
      simp only [Layout.following, Layout.member, List.cons_append, List.append_assoc]
      rw [foldMembers_round (moreMembers_comma _ layout.blank_lead) (name_read name _)
        (taken _ (ends_following layout members blank))]
      exact read

theorem foldMembers_read (layout : Layout) {before after : σ} {members : List (String × Value)}
    (takes : Takes member layout.gap before members after) {trail : Bytes} (blank : Blank trail)
    (rest : Bytes) {rounds : Nat} (enough : members.length < rounds) :
    foldMembers member rounds true before
      (layout.members members ++ (trail ++ closeBrace :: rest)) =
        .ok (after, closeBrace :: rest) := by
  cases takes with
  | nil =>
      obtain ⟨rounds, rfl⟩ := Nat.exists_eq_succ_of_ne_zero (Nat.ne_zero_of_lt enough)
      exact foldMembers_end (moreMembers_close true rest blank) before
  | @cons _ between _ name value members taken more =>
      obtain ⟨rounds, rfl⟩ := Nat.exists_eq_succ_of_ne_zero (Nat.ne_zero_of_lt enough)
      have read := foldMembers_following layout more blank rest (Nat.lt_of_succ_lt_succ enough)
      simp only [Layout.members, Layout.member, List.cons_append, List.append_assoc]
      rw [foldMembers_round (moreMembers_first _ layout.blank_lead) (name_read name _)
        (taken _ (ends_following layout members blank))]
      exact read

end Bearer.Json.Reader
