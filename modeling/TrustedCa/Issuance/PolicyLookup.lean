import TrustedCa.Issuance.Endorsement
import TrustedCa.Issuance.Spiffe

/-!
# Which policy an endorsement selects (`FileSourcedPolicyProvider.getPolicy`)

The ids of the endorsement are joined by a slash, and the text is looked up among the keys of the
caller's policy file. The policy that is found has ids of its own, which the certificate then names.
Nothing compares the two, and a key with several slashes stands for several pairs of ids.

* `Faithful`: the policy that is found has the ids of the endorsement, and no other pair finds it.
* `Keyed`: the keys of a file are the ids of their policies.
-/

namespace TrustedCa
namespace Issuance

open Spec

namespace FileSourcedPolicyProvider

/-- The ids of the endorsement, where the mapper binds its bytes. -/
def Endorsed (mapper : Bytes → Except Thrown Json.InTotoStatement) (statementBytes : Bytes)
    (annotations : EndorsementAnnotations) : Prop :=
  JsonIntotoEndorsementMetadataProvider.getAnnotations mapper statementBytes = .ok annotations

/-- The text that is looked up. -/
def lookupKey (annotations : EndorsementAnnotations) : JString :=
  annotations.publisherId ++ .lit "/" ++ annotations.workloadId

theorem lookupKey_eq (annotations : EndorsementAnnotations) :
    lookupKey annotations = annotations.publisherId ++ JString.char '/' :: annotations.workloadId := by
  rw [lookupKey, List.append_assoc]
  rfl

/-- The device has the file for the caller. -/
def Serves (identity : CallerIdentity) (file : Bytes) (answer : Log → (o : Op) → Ret o) : Prop :=
  ∀ log, answer log (.fetchFile identity.getClientId) = .ok (some file)

/-- The lookup in a file of the caller. -/
theorem getPolicy_run {format : PolicyFormat} {identity : CallerIdentity} {file : Bytes}
    {policies : Policies} {answer : Log → (o : Op) → Ret o} (hserves : Serves identity file answer)
    (hparse : parsePolicies format (format.toStringUtf8 file) = .ok policies)
    (hissuer : policies.issuer = identity.issuer) (hsubject : policies.subject = identity.subject)
    (annotations : EndorsementAnnotations) (log : Log) :
    ((getPolicy format identity annotations.publisherId annotations.workloadId).run answer log).2 =
      .ok (policies.get (lookupKey annotations)) := by
  have hsame : ¬ (policies.issuer ≠ identity.issuer ∨ policies.subject ≠ identity.subject) := by
    rintro (h | h)
    · exact h hissuer
    · exact h hsubject
  unfold getPolicy fetchFile
  simp only [Prog.run, bind, Prog.bind, tryCatch, Prog.tryCatch, hserves log, Prog.ofExcept, hparse,
    hsame]
  rfl

/-- For the ids of every endorsement, the policy that is returned has these ids, and different ids
never select the same entry of the file. -/
structure Faithful (format : PolicyFormat) (identity : CallerIdentity) (file : Bytes)
    (policies : Policies) : Prop where
  ids : ∀ mapper statementBytes annotations answer log policy,
    Endorsed mapper statementBytes annotations → Serves identity file answer →
    ((getPolicy format identity annotations.publisherId annotations.workloadId).run answer log).2 =
      .ok (some policy) →
    policy.publisherId = annotations.publisherId ∧ policy.workloadId = annotations.workloadId
  entries : ∀ mapper statementBytes statementBytes' annotations annotations' policy,
    Endorsed mapper statementBytes annotations → Endorsed mapper statementBytes' annotations' →
    policies.get (lookupKey annotations) = some policy →
    lookupKey annotations = lookupKey annotations' → annotations = annotations'

/-- No key has two slashes, and a key with a slash is made of the ids of its policy. -/
def Keyed (policies : Policies) : Prop :=
  ∀ key policy, policies.get key = some policy → key.count (JString.char '/') ≤ 1 ∧
    (JString.char '/' ∈ key → key = lookupKey ⟨policy.publisherId, policy.workloadId⟩)

/-- Ids that make up a key with one slash have none. -/
theorem eq_of_lookupKey_eq {a b : EndorsementAnnotations} (h : lookupKey a = lookupKey b)
    (hcount : (lookupKey a).count (JString.char '/') ≤ 1) : a = b := by
  have hcount' := hcount
  rw [h] at hcount'
  rw [lookupKey_eq, List.count_append, List.count_cons_self] at hcount hcount'
  rw [lookupKey_eq, lookupKey_eq] at h
  obtain ⟨hpublisher, hworkload⟩ := append_cons_inj_of_count (by omega) h
  cases a
  cases b
  cases hpublisher
  cases hworkload
  rfl

/-- A device that has the file. -/
def serving (file : Bytes) (log : Log) : (o : Op) → Ret o
  | .fetchFile _ => .ok (some file)
  | o => Sample.answer [] log o

/-- A mapper that binds two texts to the statements with the ids. -/
def binding (a b : EndorsementAnnotations) (statementBytes : Bytes) :
    Except Thrown Json.InTotoStatement :=
  .ok (JsonIntotoEndorsementMetadataProvider.statementOf (if statementBytes = [] then a else b))

theorem endorsed_binding (a b : EndorsementAnnotations) (statementBytes : Bytes) :
    Endorsed (binding a b) statementBytes (if statementBytes = [] then a else b) :=
  JsonIntotoEndorsementMetadataProvider.getAnnotations_statementOf _ rfl

/-- The lookup is faithful exactly for the files that are keyed by the ids of their policies. -/
theorem getPolicy_faithful_iff (format : PolicyFormat) (identity : CallerIdentity) (file : Bytes)
    (policies : Policies) (hparse : parsePolicies format (format.toStringUtf8 file) = .ok policies)
    (hissuer : policies.issuer = identity.issuer) (hsubject : policies.subject = identity.subject) :
    Faithful format identity file policies ↔ Keyed policies := by
  constructor
  · intro hfaithful key policy hget
    -- The ids of the policy are the texts around the first slash, and there is no second one.
    have hids : ∀ p w, key = p ++ JString.char '/' :: w → JString.char '/' ∉ w ∧
        policy.publisherId = p ∧ policy.workloadId = w := by
      intro p w hsplit
      have hkey : key = lookupKey ⟨p, w⟩ := hsplit.trans (lookupKey_eq ⟨p, w⟩).symm
      rw [hkey] at hget
      refine ⟨fun hslash => ?_, hfaithful.ids _ _ _ (serving file) [] policy
        (endorsed_binding ⟨p, w⟩ ⟨p, w⟩ []) (fun _ => rfl) ?_⟩
      · obtain ⟨p', w', rfl⟩ := List.append_of_mem hslash
        have hsame : lookupKey ⟨p, p' ++ JString.char '/' :: w'⟩ =
            lookupKey ⟨p ++ JString.char '/' :: p', w'⟩ := by
          rw [lookupKey_eq, lookupKey_eq, List.append_assoc]
          rfl
        have heq := hfaithful.entries _ [] [0] _ _ policy
          (endorsed_binding ⟨p, p' ++ JString.char '/' :: w'⟩ ⟨p ++ JString.char '/' :: p', w'⟩ [])
          (endorsed_binding _ _ [0]) hget hsame
        have hlength := congrArg (fun a => a.publisherId.length) heq
        simp at hlength
      · rw [if_pos rfl, getPolicy_run (fun _ => rfl) hparse hissuer hsubject, hget]
    by_cases hmem : JString.char '/' ∈ key
    · obtain ⟨p, w, hsplit⟩ := List.append_of_mem hmem
      obtain ⟨hw, rfl, rfl⟩ := hids p w hsplit
      have hp : JString.char '/' ∉ policy.publisherId := by
        intro hslash
        obtain ⟨p₁, p₂, hp⟩ := List.append_of_mem hslash
        rw [hp, List.append_assoc] at hsplit
        exact (hids _ _ hsplit).1 (List.mem_append_right _ List.mem_cons_self)
      refine ⟨?_, fun _ => ?_⟩
      · rw [hsplit, List.count_append, List.count_cons_self, List.count_eq_zero.mpr hp,
          List.count_eq_zero.mpr hw]
      · rw [lookupKey_eq]
        exact hsplit
    · rw [List.count_eq_zero.mpr hmem]
      exact ⟨Nat.zero_le 1, fun h => absurd h hmem⟩
  · intro hkeyed
    refine ⟨?_, ?_⟩
    · intro mapper statementBytes annotations answer log policy _ hserves hrun
      rw [getPolicy_run hserves hparse hissuer hsubject] at hrun
      obtain ⟨hcount, hkey⟩ := hkeyed _ _ (Except.ok.inj hrun)
      have hmem : JString.char '/' ∈ lookupKey annotations := by
        rw [lookupKey_eq]
        exact List.mem_append_right _ List.mem_cons_self
      obtain rfl := eq_of_lookupKey_eq (hkey hmem) hcount
      exact ⟨rfl, rfl⟩
    · intro mapper statementBytes statementBytes' annotations annotations' policy _ _ hget hsame
      exact eq_of_lookupKey_eq hsame (hkeyed _ _ hget).1

/-- The text of a file with one policy under the key. -/
def sampleText (key publisherId : JString) : JString :=
  .lit "issuer: \"https://issuer\" " ++
    .lit "subject: \"client\" " ++
    .lit "policies \x7b key: \"" ++ key ++
    .lit "\" value \x7b publisher_id: \"" ++ publisherId ++
    .lit "\" workload_id: \"app\" " ++
    .lit "operator_domain: \"ops\" " ++
    .lit "operator_role: \"main\" " ++
    .lit "reference_values \x7b" ++
    .lit "oak_reference_values \x7b\x7d \x7d " ++
    .lit "certificate_attributes \x7b" ++
    .lit "max_certificate_validity \x7b" ++
    .lit "seconds: 3600 \x7d \x7d \x7d \x7d"

/-- What the text says. -/
def sampleProtos (key publisherId : JString) : Proto.Policies Proto.V2.Policy where
  issuer := .lit "https://issuer"
  subject := .lit "client"
  policiesMap := [(key, SubjectAlternativeNameModifier.sampleProto (.lit "ops") publisherId)]

def samplePolicies (key publisherId : JString) : Policies where
  issuer := .lit "https://issuer"
  subject := .lit "client"
  policiesMap := [(key, SubjectAlternativeNameModifier.samplePolicy (.lit "ops") publisherId)]

def sampleLookup (key publisherId : JString) : PolicyFormat where
  toStringUtf8 bytes := bytes.map UInt8.toUInt16
  mergeV1 _ := .error ⟨.parseException, []⟩
  mergeV2 content :=
    if content = sampleText key publisherId then .ok (sampleProtos key publisherId)
    else .error ⟨.parseException, []⟩
  toString _ := []

def sampleFile (key publisherId : JString) : Bytes := (sampleText key publisherId).map UInt16.toUInt8

/-- The theorem for a file with one policy under its own ids. -/
theorem getPolicy_faithful_iff_dev :
    Faithful (sampleLookup (.lit "dev@acme/app") (.lit "dev@acme")) Sample.identity
      (sampleFile (.lit "dev@acme/app") (.lit "dev@acme"))
      (samplePolicies (.lit "dev@acme/app") (.lit "dev@acme")) := by
  refine (getPolicy_faithful_iff _ _ _ _ (by decide +kernel) rfl rfl).mpr ?_
  intro key policy hget
  rw [Policies.get, samplePolicies, List.lookup_cons] at hget
  split at hget
  · next hkey =>
    cases hget
    rw [eq_of_beq hkey]
    exact ⟨by decide, fun _ => by decide⟩
  · cases hget

/-- A file may have the policy of another publisher under a key, and the caller is given it. -/
theorem getPolicy_returns_other_publisher :
    ¬ ∀ (format : PolicyFormat) (identity : CallerIdentity) (file : Bytes) (policies : Policies),
      parsePolicies format (format.toStringUtf8 file) = .ok policies →
      policies.issuer = identity.issuer → policies.subject = identity.subject →
      Faithful format identity file policies := by
  intro hclaim
  let format := sampleLookup (.lit "dev@acme/app") (.lit "root@acme")
  let file := sampleFile (.lit "dev@acme/app") (.lit "root@acme")
  have hparse : parsePolicies format (format.toStringUtf8 file) =
      .ok (samplePolicies (.lit "dev@acme/app") (.lit "root@acme")) := by
    decide +kernel
  let annotations : EndorsementAnnotations := ⟨.lit "dev@acme", .lit "app"⟩
  have hids := (hclaim format Sample.identity file _ hparse rfl rfl).ids _ [] annotations
    (serving file) [] (SubjectAlternativeNameModifier.samplePolicy (.lit "ops") (.lit "root@acme"))
    (endorsed_binding annotations annotations []) (fun _ => rfl)
    (by rw [getPolicy_run (fun _ => rfl) hparse rfl rfl]; decide)
  exact absurd hids.1 (by decide)

end FileSourcedPolicyProvider

end Issuance
end TrustedCa
