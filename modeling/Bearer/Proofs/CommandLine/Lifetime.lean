import Bearer.CommandLine.Run
import Bearer.Proofs.Outcome
import Bearer.Proofs.Time.Instant
/-!
# Lifetimes from the command line

* `Gives`: the lifetime that a text gives, if it is not too long for a span.
* `endSecond`: the second in which a lifetime ends, rounded down from nanoseconds.
* `Lasts`: claims that are not expired to the end of their lifetime, and are a second later.
* `ttl_sets_expiry`: when a lifetime fails and how; otherwise the claims last as long as it says.
-/

namespace Bearer

namespace Claims

theorem isExpired_iff {claims : Claims} {now : Instant} :
    claims.isExpired now = true ↔ ∃ second, claims.exp = some second ∧ second < now.second := by
  unfold isExpired
  cases claims.exp <;> simp

theorem isExpired_mono {claims : Claims} {now later : Instant} (le : now ≤ later)
    (expired : claims.isExpired now = true) : claims.isExpired later = true := by
  obtain ⟨second, exp, late⟩ := isExpired_iff.1 expired
  exact isExpired_iff.2 ⟨second, exp, Int.lt_of_lt_of_le late (Instant.second_le_of_le le)⟩

end Claims

namespace CommandLine

/-! ## The text -/

def longestLifetime : Int := (Nat.pow 2 63 - 1) * 1000000

structure Gives (text : String) (duration : Duration) : Prop where
  parsed : Duration.parse text = .ok duration
  fits : duration.toNanos ≤ longestLifetime

inductive Spoiled (text : String) : ConfigFault → Prop where
  | unreadable {reason : DurationError} (malformed : Duration.parse text = .error reason) :
      Spoiled text (.lifetime text reason)
  | tooLong {duration : Duration} (parsed : Duration.parse text = .ok duration)
      (long : longestLifetime < duration.toNanos) : Spoiled text .lifetimeOutOfRange

def spanOf (duration : Duration) : Span := ⟨duration.toNanos⟩

theorem toSpan?_eq (duration : Duration) : duration.toSpan? =
    if duration.toNanos ≤ longestLifetime then some (spanOf duration) else none := by
  unfold Duration.toSpan? longestLifetime spanOf
  rfl

theorem nonneg_spanOf (duration : Duration) : 0 ≤ (spanOf duration).nanos := by
  simp only [spanOf, Duration.toNanos, Span.nanosPerSecond]
  omega

theorem lifetime_of_parsed {text : String} {duration : Duration}
    (parsed : Duration.parse text = .ok duration) (config : Config) :
    lifetime config (some text) = match duration.toSpan? with
      | some span => .ok span
      | none => .error .lifetimeOutOfRange := by
  rw [lifetime, parsed, mapError_ok, ok_bind]
  dsimp only
  -- By cases, since the kernel would count up to the limit to compare the two sides as they are.
  cases duration.toSpan? <;> rfl

theorem lifetime_of_gives {text : String} {duration : Duration} (gives : Gives text duration)
    (config : Config) : lifetime config (some text) = .ok (spanOf duration) := by
  rw [lifetime_of_parsed gives.parsed, toSpan?_eq, if_pos gives.fits]

theorem lifetime_of_spoiled {text : String} {fault : ConfigFault} (spoiled : Spoiled text fault)
    (config : Config) : lifetime config (some text) = .error fault := by
  cases spoiled with
  | unreadable malformed => rw [lifetime, malformed, mapError_error, error_bind]
  | tooLong parsed long =>
      rw [lifetime_of_parsed parsed, toSpan?_eq, if_neg (Int.not_le.2 long)]

theorem gives_or_spoiled (text : String) :
    (∃ duration, Gives text duration) ∨ ∃ fault, Spoiled text fault := by
  cases parsed : Duration.parse text with
  | error reason => exact .inr ⟨_, .unreadable parsed⟩
  | ok duration =>
      rcases Int.lt_or_le longestLifetime duration.toNanos with long | fits
      · exact .inr ⟨_, .tooLong parsed long⟩
      · exact .inl ⟨duration, parsed, fits⟩

/-! ## The end -/

def endSecond (now : Instant) (duration : Duration) : Int :=
  (now.posixNanos + duration.toNanos) / Span.nanosPerSecond

theorem add?_eq_none_iff_endSecond {now : Instant} {duration : Duration} :
    now.add? (spanOf duration) = none ↔ Instant.lastSecond < endSecond now duration :=
  Instant.add?_eq_none_iff (nonneg_spanOf duration)

/-- Claims that are not expired now, nor at any time up to their ending, and are from one second after
that. -/
structure Lasts (claims : Claims) (now ending : Instant) : Prop where
  fresh : claims.isExpired now = false
  valid : ∀ t, t ≤ ending → claims.isExpired t = false
  ended : ∀ later, ending.add? (Span.seconds 1) = some later →
    ∀ t, later ≤ t → claims.isExpired t = true

theorem second_of_add?_second {ending later : Instant}
    (added : ending.add? (Span.seconds 1) = some later) : later.second = ending.second + 1 := by
  rw [Instant.second_of_add? (by decide) added, ← Instant.posixNanos_div ending]
  simp only [Span.seconds, Span.nanosPerSecond]
  omega

theorem lasts_of_expiresAt {now ending : Instant} (le : now ≤ ending) (claims : Claims) :
    Lasts (claims.expiresAt ending) now ending := by
  have valid (t : Instant) (le : t ≤ ending) : (claims.expiresAt ending).isExpired t = false := by
    have second := Instant.second_le_of_le le
    simp only [Claims.isExpired, Claims.expiresAt, decide_eq_false_iff_not]
    omega
  -- Time is compared in whole seconds, so a second has to pass before the claims are expired.
  refine ⟨valid now le, valid, fun later added t le => ?_⟩
  refine Claims.isExpired_mono le (Claims.isExpired_iff.2 ⟨ending.second, rfl, ?_⟩)
  rw [second_of_add?_second added]
  omega

/-! ## Claims that are issued -/

section Issue

variable {config : Config} {text ttl : String} {now : Instant}

theorem expiringClaims_of_spoiled {fault : ConfigFault} (spoiled : Spoiled ttl fault) :
    expiringClaims config text (some ttl) now = .error (.config fault) := by
  rw [expiringClaims, lifetime_of_spoiled spoiled, mapError_error, error_bind]

theorem expiringClaims_of_gives {duration : Duration} (gives : Gives ttl duration) :
    expiringClaims config text (some ttl) now =
      (readClaims text >>= fun claims => claims.expiresIn now (spanOf duration)) := by
  rw [expiringClaims, lifetime_of_gives gives, mapError_ok, ok_bind]

theorem expiringClaims_not_config {duration : Duration} (gives : Gives ttl duration)
    (fault : ConfigFault) : expiringClaims config text (some ttl) now ≠ .error (.config fault) := by
  rw [expiringClaims_of_gives gives, readClaims]
  cases Claims.read (Utf8.encode text) with
  | error reason => nofun
  | ok claims =>
      rw [mapError_ok, ok_bind, Claims.expiresIn]
      cases now.add? (spanOf duration) <;> nofun

theorem expiringClaims_eq_config_iff {fault : ConfigFault} :
    expiringClaims config text (some ttl) now = .error (.config fault) ↔ Spoiled ttl fault := by
  constructor
  · intro failed
    rcases gives_or_spoiled ttl with ⟨duration, gives⟩ | ⟨other, spoiled⟩
    · exact absurd failed (expiringClaims_not_config gives fault)
    · rw [expiringClaims_of_spoiled spoiled] at failed
      cases failed
      exact spoiled
  · exact expiringClaims_of_spoiled

theorem expiringClaims_of_readable {claims : Claims} (readable : readClaims text = .ok claims)
    {duration : Duration} (gives : Gives ttl duration) :
    expiringClaims config text (some ttl) now = match now.add? (spanOf duration) with
      | some ending => .ok (claims.expiresAt ending)
      | none => .error (.malformedClaims (.expiryOutOfRange (spanOf duration))) := by
  rw [expiringClaims_of_gives gives, readable, ok_bind]
  rfl

theorem expiringClaims_eq_malformed_iff {claims : Claims}
    (readable : readClaims text = .ok claims) {fault : ClaimsFault} :
    expiringClaims config text (some ttl) now = .error (.malformedClaims fault) ↔
      ∃ duration, Gives ttl duration ∧ Instant.lastSecond < endSecond now duration ∧
        fault = .expiryOutOfRange (spanOf duration) := by
  constructor
  · intro failed
    rcases gives_or_spoiled ttl with ⟨duration, gives⟩ | ⟨other, spoiled⟩
    · rw [expiringClaims_of_readable readable gives] at failed
      cases added : now.add? (spanOf duration) with
      | none =>
          rw [added] at failed
          cases failed
          exact ⟨duration, gives, add?_eq_none_iff_endSecond.1 added, rfl⟩
      | some ending =>
          rw [added] at failed
          cases failed
    · rw [expiringClaims_of_spoiled spoiled] at failed
      cases failed
  · rintro ⟨duration, gives, late, rfl⟩
    rw [expiringClaims_of_readable readable gives, add?_eq_none_iff_endSecond.2 late]

end Issue

/-- A lifetime on the command line fails as a matter of configuration exactly when its text is
spoiled, whatever the claims are. For readable claims it fails otherwise only if the calendar ends
first, and else they get the second in which it ends as their expiry, in place of any they had, and
last as long. Claims that are expired stay so. -/
theorem ttl_sets_expiry (config : Config) (text ttl : String) (now : Instant) :
    (∀ fault, expiringClaims config text (some ttl) now = .error (.config fault) ↔
      Spoiled ttl fault) ∧
    (∀ duration, now.add? (spanOf duration) = none ↔
      Instant.lastSecond < endSecond now duration) ∧
    (∀ claims, readClaims text = .ok claims →
      (∀ fault, expiringClaims config text (some ttl) now = .error (.malformedClaims fault) ↔
        ∃ duration, Gives ttl duration ∧ Instant.lastSecond < endSecond now duration ∧
          fault = .expiryOutOfRange (spanOf duration)) ∧
      ∀ duration ending, Gives ttl duration → now.add? (spanOf duration) = some ending →
        let issued := { claims with exp := some (endSecond now duration) }
        expiringClaims config text (some ttl) now = .ok issued ∧ Lasts issued now ending) ∧
    ∀ (claims : Claims) (s t : Instant), s ≤ t → claims.isExpired s = true →
      claims.isExpired t = true := by
  refine ⟨fun _ => expiringClaims_eq_config_iff, fun _ => add?_eq_none_iff_endSecond,
    fun claims readable => ⟨fun _ => expiringClaims_eq_malformed_iff readable, ?_⟩,
    fun claims s t le => Claims.isExpired_mono le⟩
  intro duration ending gives added
  have forward := nonneg_spanOf duration
  have expiry : { claims with exp := some (endSecond now duration) } = claims.expiresAt ending := by
    rw [Claims.expiresAt, Instant.second_of_add? forward added]
    rfl
  simp only [expiry]
  constructor
  · rw [expiringClaims_of_readable readable gives, added]
  · exact lasts_of_expiresAt (Instant.le_of_add? forward added) claims

def halfBefore1970 : Instant := ⟨-1, 500000000, by decide, by decide, by decide⟩

theorem lifetime_leads_into_1970 :
    let claims : Claims := ⟨none, none, some 7, []⟩
    readClaims "\x7b\"exp\":7\x7d" = .ok claims ∧
      expiringClaims Config.default "\x7b\"exp\":7\x7d" (some "750ms") halfBefore1970 =
        .ok { claims with exp := some 0 } := by
  have readable : readClaims "\x7b\"exp\":7\x7d" = .ok ⟨none, none, some 7, []⟩ := rfl
  have gives : Gives "750ms" ⟨0, 750000000⟩ := ⟨by rfl, by decide⟩
  have added : halfBefore1970.add? (spanOf ⟨0, 750000000⟩) =
      some ⟨0, 250000000, by decide, by decide, by decide⟩ := by decide
  obtain ⟨-, -, settled, -⟩ :=
    ttl_sets_expiry Config.default "\x7b\"exp\":7\x7d" "750ms" halfBefore1970
  exact ⟨readable, ((settled _ readable).2 _ _ gives added).1⟩

end CommandLine

end Bearer
