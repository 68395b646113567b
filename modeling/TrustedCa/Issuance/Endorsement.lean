import TrustedCa.Issuance.Domain

/-!
# What an endorsement says (`JsonIntotoEndorsementMetadataProvider`, `InTotoStatement`, `Claim`)

The endorsement is a JSON text. The mapper binds its properties (`Json`), and the constructors check
them. A property that is missing or null is `none`.

* `Claim`: a claim about the publisher or the workload has the annotation that is read from it.
* `getAnnotations`: the ids of the one publisher claim and the one workload claim. Whatever is wrong
  with a statement, it is given the default ids.
* `getValidity`: the period in the statement. There is no default for it, so it throws.
-/

namespace TrustedCa
namespace Issuance

open Spec

namespace Json

/-- A map of strings, whose values may be null. -/
abbrev StringMap := List (JString × Option JString)

/-- The properties of a `Claim`. -/
structure Claim where
  type : Option JString
  annotations : Option StringMap
  deriving DecidableEq

/-- The properties of an `OakPredicate.Validity`. -/
structure Validity where
  notBefore : Option JString
  notAfter : Option JString
  deriving DecidableEq

/-- The properties of an `OakPredicate` that are read here. A claim in the list may be null. -/
structure OakPredicate where
  claims : Option (List (Option Claim))
  validity : Option Validity := none
  deriving DecidableEq

/-- The properties of an `InTotoStatement`. Of the subject only its length matters. -/
structure InTotoStatement where
  type : Option JString
  subject : Option (List Unit)
  predicateType : Option JString
  predicate : Option OakPredicate
  deriving DecidableEq

end Json

/-! ## The statement -/

/-- `annotations.get(key)`, where a map that is null has no entries. -/
def annotationOf (annotations : Option Json.StringMap) (key : JString) : Option JString :=
  (annotations.bind (·.lookup key)).join

namespace Claim

def PES_CLAIM_PUBLISHER_LEGACY_TYPE : JString :=
  .lit "https://github.com/pcit/pes/docs/claims/v1/publisher.md"

def PES_CLAIM_PUBLISHER_TYPE : JString :=
  .lit "https://github.com/private-compute-infra-toolkit/" ++
    .lit "public-endorsement-service/blob/main/docs/claims/publisher.md"

def PUBLISHER_ID_KEY : JString := .lit "publisher_id"

def WORKLOAD_CLAIM_LEGACY_TYPE : JString :=
  .lit "https://github.com/pcit/pes/docs/claims/v1/workload.md"

def WORKLOAD_CLAIM_TYPE : JString :=
  .lit "https://github.com/private-compute-infra-toolkit/" ++
    .lit "public-endorsement-service/blob/main/docs/claims/workload.md"

def WORKLOAD_ID_KEY : JString := .lit "workload_id"

def isPublisher (type : JString) : Bool :=
  type == PES_CLAIM_PUBLISHER_LEGACY_TYPE || type == PES_CLAIM_PUBLISHER_TYPE

def isWorkload (type : JString) : Bool :=
  type == WORKLOAD_CLAIM_LEGACY_TYPE || type == WORKLOAD_CLAIM_TYPE

theorem isPublisher_of_isWorkload {type : JString} (h : isWorkload type = true) :
    isPublisher type = false := by
  rw [isWorkload, Bool.or_eq_true, beq_iff_eq, beq_iff_eq] at h
  rcases h with rfl | rfl <;> decide +kernel

end Claim

/-- A claim that its constructor accepts. -/
structure Claim where
  type : JString
  annotations : Option Json.StringMap
  publisher_annotated : Claim.isPublisher type = true →
    (annotationOf annotations Claim.PUBLISHER_ID_KEY).isSome = true
  workload_annotated : Claim.isWorkload type = true →
    (annotationOf annotations Claim.WORKLOAD_ID_KEY).isSome = true

namespace Claim

/-- The checks of the constructor. -/
def validate (type : JString) (annotations : Option Json.StringMap) : Except Thrown Unit := do
  if isPublisher type then
    if annotationOf annotations PUBLISHER_ID_KEY = none then
      throw (IllegalArgumentException (.lit "Publisher claim needs to have annotations object with " ++
        PUBLISHER_ID_KEY ++ .lit " key!"))
  else if isWorkload type then
    if annotationOf annotations WORKLOAD_ID_KEY = none then
      throw (IllegalArgumentException (.lit "Workload claim needs to have annotations object with " ++
        WORKLOAD_ID_KEY ++ .lit " key!"))

theorem validate_publisher {type : JString} {annotations : Option Json.StringMap}
    (h : validate type annotations = .ok ()) (htype : isPublisher type = true) :
    (annotationOf annotations PUBLISHER_ID_KEY).isSome = true := by
  rw [validate, if_pos htype] at h
  split at h
  · cases h
  · next hsome => exact Option.isSome_iff_ne_none.mpr hsome

theorem validate_workload {type : JString} {annotations : Option Json.StringMap}
    (h : validate type annotations = .ok ()) (htype : isWorkload type = true) :
    (annotationOf annotations WORKLOAD_ID_KEY).isSome = true := by
  have hpublisher : ¬ isPublisher type = true := by
    rw [isPublisher_of_isWorkload htype]
    exact Bool.false_ne_true
  rw [validate, if_neg hpublisher, if_pos htype] at h
  split at h
  · cases h
  · next hsome => exact Option.isSome_iff_ne_none.mpr hsome

/-- `new Claim(type, annotations)`. -/
def create (json : Json.Claim) : Except Thrown Claim :=
  match json.type with
  | none => .error (IllegalArgumentException (.lit "Claim type is null"))
  | some type =>
    match h : validate type json.annotations with
    | .error e => .error e
    | .ok () => .ok ⟨type, json.annotations, validate_publisher h, validate_workload h⟩

theorem create_eq_ok {type : JString} {annotations : Option Json.StringMap}
    (h : validate type annotations = .ok ()) :
    create ⟨some type, annotations⟩ =
      .ok ⟨type, annotations, validate_publisher h, validate_workload h⟩ := by
  unfold create
  dsimp only
  split
  · next herr => rw [h] at herr; cases herr
  · rfl

end Claim

structure OakPredicate where
  claims : Option (List (Option Claim))
  validity : Option Json.Validity := none

def OakPredicate.create (json : Json.OakPredicate) : Except Thrown OakPredicate := do
  let claims ← json.claims.mapM fun claims => claims.mapM fun claim => claim.mapM Claim.create
  return { claims := claims, validity := json.validity }

structure InTotoStatement where
  predicate : Option OakPredicate

namespace InTotoStatement

def IN_TOTO_V1_TYPE : JString := .lit "https://in-toto.io/Statement/v1"

def OAK_PREDICATE_V1_TYPE : JString := .lit "https://project-oak.github.io/oak/tr/endorsement/v1"

/-- `new InTotoStatement(type, subject, predicateType, predicate)`, after its predicate. -/
def create (json : Json.InTotoStatement) : Except Thrown InTotoStatement := do
  let predicate ← json.predicate.mapM OakPredicate.create
  let some type := json.type
    | throw (IllegalArgumentException (.lit "Field '_type' cannot be null!"))
  if type ≠ IN_TOTO_V1_TYPE then
    throw (IllegalArgumentException
      (.lit "Statement _type is not '" ++ IN_TOTO_V1_TYPE ++ .lit "'. Got: " ++ type))
  let some predicateType := json.predicateType
    | throw (IllegalArgumentException (.lit "Field 'predicateType' cannot be null!"))
  if predicateType ≠ OAK_PREDICATE_V1_TYPE then
    throw (IllegalArgumentException
      (.lit "Statement predicateType is not '" ++ OAK_PREDICATE_V1_TYPE ++ .lit "'. Got: " ++
        predicateType))
  if json.subject.map List.length ≠ some 1 then
    throw (IllegalArgumentException
      (.lit "The 'subject' array must be not empty and include exactly one resource descriptor."))
  return ⟨predicate⟩

end InTotoStatement

/-! ## The provider -/

namespace JsonIntotoEndorsementMetadataProvider

-- What the mapper binds of the bytes.
variable (mapper : Bytes → Except Thrown Json.InTotoStatement)

/-- `reader.readValue`: the mapper wraps an exception of a constructor in an `IOException`. -/
def readValue (statementBytes : Bytes) : Except Thrown InTotoStatement := do
  tryCatch (InTotoStatement.create (← mapper statementBytes)) fun e => throw ⟨.ioException, e.message⟩

def parseStatement (statementBytes : Bytes) : Except Thrown InTotoStatement :=
  tryCatch (readValue mapper statementBytes) fun e =>
    if e.isA .ioException then
      throw (IllegalArgumentException (.lit "Failed to parse input as JSON: " ++ e.message))
    else throw e

/-- A dereference of something that may be null. -/
def nonNull {α : Type} : Option α → Except Thrown α
  | some a => .ok a
  | none => .error ⟨.runtimeException, .lit "NullPointerException"⟩

/-- The one element of a list of claims. -/
def exactlyOne {α : Type} (kind : JString) : List α → Except Thrown α
  | [claim] => .ok claim
  | claims => .error ⟨.runtimeException, .lit "Expected exactly one " ++ kind ++
      .lit " claim, but found: " ++ JString.decimal claims.length⟩

/-- The claims about the publisher. -/
def publisherClaims (claims : List Claim) : List { claim : Claim // Claim.isPublisher claim.type } :=
  claims.filterMap fun claim =>
    if h : Claim.isPublisher claim.type then some ⟨claim, h⟩ else none

/-- The claims about the workload. -/
def workloadClaims (claims : List Claim) : List { claim : Claim // Claim.isWorkload claim.type } :=
  claims.filterMap fun claim =>
    if h : Claim.isWorkload claim.type then some ⟨claim, h⟩ else none

def extractAnnotations (statementBytes : Bytes) : Except Thrown EndorsementAnnotations := do
  let statement ← parseStatement mapper statementBytes
  let predicate ← nonNull statement.predicate
  let claims ← (← nonNull predicate.claims).mapM nonNull
  let publisher ← exactlyOne (.lit "publisher") (publisherClaims claims)
  let workload ← exactlyOne (.lit "workload") (workloadClaims claims)
  return ⟨(annotationOf publisher.1.annotations Claim.PUBLISHER_ID_KEY).get
      (publisher.1.publisher_annotated publisher.2),
    (annotationOf workload.1.annotations Claim.WORKLOAD_ID_KEY).get
      (workload.1.workload_annotated workload.2)⟩

def getAnnotations (statementBytes : Bytes) : Except Thrown EndorsementAnnotations :=
  tryCatch (extractAnnotations mapper statementBytes) fun e =>
    if e.isA .exception then
      return ⟨.lit "default_publisher_id@example.com", .lit "default_workload_id"⟩
    else throw e

/-- `parseInstant` is `Instant.parse` on a text. A null is dereferenced there, too. -/
def extractValidity (parseInstant : JString → Except Thrown Instant) (statementBytes : Bytes) :
    Except Thrown Validity := do
  let statement ← parseStatement mapper statementBytes
  let predicate ← nonNull statement.predicate
  let validity ← nonNull predicate.validity
  let notBefore ← parseInstant (← nonNull validity.notBefore)
  let notAfter ← parseInstant (← nonNull validity.notAfter)
  return ⟨notBefore, notAfter⟩

def getValidity (parseInstant : JString → Except Thrown Instant) (statementBytes : Bytes) :
    Except Thrown Validity :=
  tryCatch (extractValidity mapper parseInstant statementBytes) fun e =>
    if e.isA .dateTimeParseException then
      throw (IllegalArgumentException
        (.lit "Endorsement does not contain correct validity format"))
    else throw e

/-- A statement with a publisher claim and a workload claim, each with the annotation of its key. -/
def statementOf (annotations : EndorsementAnnotations) : Json.InTotoStatement where
  type := some InTotoStatement.IN_TOTO_V1_TYPE
  subject := some [()]
  predicateType := some InTotoStatement.OAK_PREDICATE_V1_TYPE
  predicate := some { claims := some [
    some ⟨some Claim.PES_CLAIM_PUBLISHER_LEGACY_TYPE,
      some [(Claim.PUBLISHER_ID_KEY, some annotations.publisherId)]⟩,
    some ⟨some Claim.WORKLOAD_CLAIM_LEGACY_TYPE,
      some [(Claim.WORKLOAD_ID_KEY, some annotations.workloadId)]⟩] }

theorem isWorkload_publisherType :
    Claim.isWorkload Claim.PES_CLAIM_PUBLISHER_LEGACY_TYPE = false := by
  by_contra hcontra
  rw [Bool.not_eq_false] at hcontra
  have hpublisher : Claim.isPublisher Claim.PES_CLAIM_PUBLISHER_LEGACY_TYPE = true := by
    simp [Claim.isPublisher]
  rw [Claim.isPublisher_of_isWorkload hcontra] at hpublisher
  cases hpublisher

/-- The ids of two claims, the first about the publisher and the second about the workload. -/
theorem extractAnnotations_pair {statementBytes : Bytes} {publisher workload : Claim}
    (hparse : parseStatement mapper statementBytes =
      .ok ⟨some { claims := some [some publisher, some workload] }⟩)
    (hpublisher : Claim.isPublisher publisher.type = true)
    (hpublisher' : Claim.isWorkload publisher.type = false)
    (hworkload : Claim.isWorkload workload.type = true) :
    extractAnnotations mapper statementBytes =
      .ok ⟨(annotationOf publisher.annotations Claim.PUBLISHER_ID_KEY).get
          (publisher.publisher_annotated hpublisher),
        (annotationOf workload.annotations Claim.WORKLOAD_ID_KEY).get
          (workload.workload_annotated hworkload)⟩ := by
  have hworkload' := Claim.isPublisher_of_isWorkload hworkload
  have hpublishers : publisherClaims [publisher, workload] = [⟨publisher, hpublisher⟩] := by
    simp [publisherClaims, hpublisher, hworkload']
  have hworkloads : workloadClaims [publisher, workload] = [⟨workload, hworkload⟩] := by
    simp [workloadClaims, hpublisher', hworkload]
  have hclaims : [some publisher, some workload].mapM nonNull = .ok [publisher, workload] := rfl
  refine bind_eq_ok.mpr ⟨_, hparse, bind_eq_ok.mpr ⟨_, rfl, bind_eq_ok.mpr ⟨_, rfl,
    bind_eq_ok.mpr ⟨_, hclaims, bind_eq_ok.mpr ⟨⟨publisher, hpublisher⟩, ?_,
    bind_eq_ok.mpr ⟨⟨workload, hworkload⟩, ?_, rfl⟩⟩⟩⟩⟩⟩
  · rw [hpublishers]
    rfl
  · rw [hworkloads]
    rfl

/-- Any two texts can be the ids of an endorsement. -/
theorem getAnnotations_statementOf {statementBytes : Bytes} {annotations : EndorsementAnnotations}
    (h : mapper statementBytes = .ok (statementOf annotations)) :
    getAnnotations mapper statementBytes = .ok annotations := by
  have hpublisher : Claim.isPublisher Claim.PES_CLAIM_PUBLISHER_LEGACY_TYPE = true := by
    simp [Claim.isPublisher]
  have hworkload : Claim.isWorkload Claim.WORKLOAD_CLAIM_LEGACY_TYPE = true := by
    simp [Claim.isWorkload]
  have hvalid : Claim.validate Claim.PES_CLAIM_PUBLISHER_LEGACY_TYPE
      (some [(Claim.PUBLISHER_ID_KEY, some annotations.publisherId)]) = .ok () := by
    simp [Claim.validate, hpublisher, annotationOf]
    rfl
  have hvalid' : Claim.validate Claim.WORKLOAD_CLAIM_LEGACY_TYPE
      (some [(Claim.WORKLOAD_ID_KEY, some annotations.workloadId)]) = .ok () := by
    simp [Claim.validate, Claim.isPublisher_of_isWorkload hworkload, hworkload, annotationOf]
    rfl
  have hcreate : InTotoStatement.create (statementOf annotations) =
      .ok ⟨some { claims := some [
        some ⟨_, _, Claim.validate_publisher hvalid, Claim.validate_workload hvalid⟩,
        some ⟨_, _, Claim.validate_publisher hvalid', Claim.validate_workload hvalid'⟩] }⟩ := by
    simp [InTotoStatement.create, statementOf, OakPredicate.create,
      Claim.create_eq_ok hvalid, Claim.create_eq_ok hvalid', bind, Except.bind, pure, Except.pure]
  have hparse : parseStatement mapper statementBytes =
      InTotoStatement.create (statementOf annotations) := by
    rw [hcreate]
    refine (tryCatch_eq_ok fun e b => ?_).mpr
      (bind_eq_ok.mpr ⟨_, h, (tryCatch_eq_ok fun e b hb => ?_).mpr hcreate⟩)
    · split <;> intro hb <;> cases hb
    · cases hb
  rw [getAnnotations, extractAnnotations_pair mapper (hparse.trans hcreate) hpublisher
    isWorkload_publisherType hworkload]
  simp [annotationOf, tryCatch, tryCatchThe, MonadExceptOf.tryCatch, Except.tryCatch]

end JsonIntotoEndorsementMetadataProvider

end Issuance
end TrustedCa
