import Bearer.Config.Basic
import Bearer.Proofs.Outcome
import Bearer.Proofs.Time.Duration

namespace Bearer

/-! ## Settings that have been written -/

namespace Settings.Tree

open Json (Value Number)

def ofNumber (source : Source) : Number → Tree
  | .int value => .scalar source (if 0 ≤ value then .unsigned value.toNat else .signed value)
  | .float value => .scalar source (.float value)

mutual

def ofJson (source : Source) : Value → Tree
  | .null => .scalar source .unit
  | .bool value => .scalar source (.bool value)
  | .number number => ofNumber source number
  | .string value => .text source value
  | .array items => .list source (ofItems source items)
  | .object members => .table source (ofMembers source members)

def ofItems (source : Source) : List Value → List Tree
  | [] => []
  | item :: items => ofJson source item :: ofItems source items

def ofMembers (source : Source) : List (String × Value) → List (String × Tree)
  | [] => []
  | (name, value) :: rest => (name, ofJson source value) :: ofMembers source rest

end

end Settings.Tree

namespace Settings.Reader

variable {α β : Type}

theorem parsed_read {parse : String → Except String α} {written : String} {value : α}
    (accepted : parse written = .ok value) (path : List String) (source : Source) :
    parsed parse path (.text source written) = .ok value := by
  simp only [parsed, Tree.text, text, ok_bind, accepted]
  rfl

theorem updateMember_read {parts : List (Part α)} {name : String} {reader : Reader β}
    {update : α → β → α} (isPart : parts.find? (·.name == name) = some (.of name reader update))
    {path : List String} {tree : Tree} {value : β}
    (read : reader (path ++ [name]) tree = .ok value) (before : α) :
    updateMember parts path before (name, tree) = .ok (update before value) := by
  simp only [updateMember, isPart, Part.of, read]
  rfl

end Settings.Reader

namespace TokenConfig

open Settings (Tree Source)
open Settings.Reader (updateMember_read parsed_read)

theorem reader_toJson {tokens : TokenConfig} (fits : tokens.defaultTtl.seconds < Duration.limit)
    (path : List String) (source : Source) :
    reader path (.ofJson source tokens.toJson) =
      .ok { tokens with defaultTtl := tokens.defaultTtl.whole } := by
  have accepted : readDuration tokens.defaultTtl.text = .ok tokens.defaultTtl.whole := by
    rw [readDuration, Duration.parse_text fits, mapError_ok]
  simp only [reader, Settings.Reader.record, toJson, Tree.ofJson, Tree.ofMembers,
    List.foldlM_cons, List.foldlM_nil]
  rw [updateMember_read rfl (parsed_read accepted _ source), ok_bind, updateMember_read rfl rfl]
  rfl

/-- A lifetime that was read from a text, and is written and read again, is rounded down to whole
seconds. So it is kept unless the text gave milliseconds that are no whole seconds. -/
theorem default_ttl_kept_iff {text : String} {duration : Duration}
    (parsed : Duration.parse text = .ok duration) :
    Duration.parse duration.text = .ok duration.whole ∧
    (∀ requireExpiry path source,
      reader path (.ofJson source (toJson ⟨requireExpiry, duration⟩)) =
        .ok ⟨requireExpiry, duration.whole⟩) ∧
    (Duration.parse duration.text = .ok duration ↔
      ¬∃ count, Duration.Counts text count .milliseconds ∧ count % 1000 ≠ 0) := by
  have fits := Duration.seconds_lt_of_parse parsed
  refine ⟨Duration.parse_text fits, fun _ path source => reader_toJson fits path source, ?_⟩
  rw [Duration.parse_text fits, Except.ok.injEq, Duration.whole_eq_self_iff,
    ← Duration.nanos_ne_zero_iff parsed, Decidable.not_not]

theorem quarter_second_is_dropped :
    Duration.parse "250ms" = .ok ⟨0, 250000000⟩ ∧ Duration.parse "0s" = .ok ⟨0, 0⟩ ∧
      reader [] (.ofJson .unknown (toJson ⟨true, ⟨0, 250000000⟩⟩)) = .ok ⟨true, ⟨0, 0⟩⟩ := by
  have parsed : Duration.parse "250ms" = .ok ⟨0, 250000000⟩ := rfl
  obtain ⟨rounded, read, -⟩ := default_ttl_kept_iff parsed
  exact ⟨parsed, rounded, read true [] .unknown⟩

theorem quarter_second_is_not_kept :
    Duration.parse "250ms" = .ok ⟨0, 250000000⟩ ∧
      Duration.parse (Duration.text ⟨0, 250000000⟩) ≠ .ok ⟨0, 250000000⟩ := by
  have rounded : Duration.parse (Duration.text ⟨0, 250000000⟩) = .ok ⟨0, 0⟩ := rfl
  refine ⟨rfl, fun kept => ?_⟩
  rw [rounded] at kept
  cases kept

end TokenConfig

end Bearer
