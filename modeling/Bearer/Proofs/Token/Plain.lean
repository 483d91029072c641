import Bearer.Proofs.Key.Signing
import Bearer.Proofs.Token.Issue
/-!
# Plain tokens stay verifiable

From its signing on, a plain token is answered with its claims in every state of a run, as far as the
clock and the policy allow (`plain_token_lasts`).
-/

namespace Bearer

open Keeper TokenService World

/-- Let a plain token be signed with a key of the ring, after any run from a filled store, and let
the run go on in any way. If no two keys are minted under one identifier, the token is answered with
the stamped claims, with what is wrong with their expiry, or with what the policy misses. -/
theorem plain_token_lasts {store : Store} (filled : Filled store) (clock : Instant)
    (domain : String) (policy : TokenPolicy) (before later : List Action) {claims : Claims}
    (encodable : claims.Encodable) (entropy : Entropy) {token : String} {signer verifier : World}
    (isSigner : signer = (start store clock).run (.ofDomain domain policy) before)
    (issued : (perform ((TokenService.ofDomain domain policy).signPlain claims none signer.clock
      entropy) signer.keeper).1 = .ok token)
    (isVerifier : verifier = (signer.step (.ofDomain domain policy)
      (.signPlain claims none entropy)).run (.ofDomain domain policy) later)
    (fresh : FreshIds store verifier.keeper.trail) :
    (TokenService.ofDomain domain policy).verifyPlain verifier.keeper.ring token none
        verifier.clock =
      let stamped : Claims := { claims with
        iss := some ("https://" ++ domain)
        iat := some (claims.iat.getD signer.clock.second) }
      match claims.exp with
      | some exp => if verifier.clock.second ≤ exp then .ok stamped else .error .expired
      | none =>
          if policy.requireExpiry then .error (.malformedClaims .missingExpiry) else .ok stamped := by
  subst isSigner isVerifier
  rcases signed : perform ((TokenService.ofDomain domain policy).signPlain claims none
    ((start store clock).run (.ofDomain domain policy) before).clock entropy)
    ((start store clock).run (.ofDomain domain policy) before).keeper with ⟨outcome, after⟩
  rw [signed] at issued
  obtain rfl : outcome = .ok token := issued
  obtain ⟨key, step, rfl⟩ := sealEnvelope_eq_ok signed
  have known := known_after_run (.ofDomain domain policy) filled clock before later .refl step
    (congrArg Prod.snd signed) fresh
  exact verifyPlain_signedToken _ known encodable (.ofDomain domain policy) _ _

theorem plain_token_outlives_its_key :
    ∃ token, (perform ((TokenService.ofDomain "example.org" ⟨false⟩).signPlain .empty none .epoch
        (sampleEntropy 1)) (start (.memory .empty) .epoch).keeper).1 = .ok token ∧
      (TokenService.ofDomain "example.org" ⟨false⟩).verifyPlain
        ((start (.memory .empty) .epoch).run (.ofDomain "example.org" ⟨false⟩)
          [.signPlain .empty none (sampleEntropy 1), .setClock (sampleYear 1),
            .currentSigningKey (sampleDraw 3), .reload]).keeper.ring token none (sampleYear 1) =
        .ok ⟨some "https://example.org", some 0, none, []⟩ := by
  refine ⟨_, rfl, ?_⟩
  refine plain_token_lasts (.memory false false) .epoch "example.org" ⟨false⟩ []
    [.setClock (sampleYear 1), .currentSigningKey (sampleDraw 3), .reload] Claims.encodable_empty
    (sampleEntropy 1) rfl rfl rfl ?_
  decide

end Bearer
