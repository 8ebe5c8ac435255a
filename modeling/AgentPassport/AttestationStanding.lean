import AgentPassport.ContextProvenance
import AgentPassport.KeyStanding

/-! The key check of a context attestation (`v2/context-provenance/verify.ts`, step 4) against a document
that goes on being rotated. The instant a text names, `new Date(text)`, is a parameter. -/
namespace AgentPassport.AttestationStanding
open JsText Js Rfc3339 Outcome KeyRotation RotationHistory KeyStanding
open ContextProvenance (ContextProvenanceAttestation)
open LegacyDelegation (toISOString)

def keyCheck (R : Runtime) (didDoc : RotatableDIDDocument) (publicKey : Str) (attestedAt : Option Int) : Bool :=
  verifyRotationChain R didDoc && isKeyActive didDoc publicKey attestedAt

/-- Step 4 of `verifyCPA`. -/
def producerKeyActive (R : Runtime) (newDate : Str → Option Int) (didDoc : RotatableDIDDocument)
    (c : ContextProvenanceAttestation) : Bool :=
  keyCheck R didDoc c.producer_pubkey (newDate c.attested_at)

def heldBy (publicKey : Str) (methods : List RotatableVerificationMethod) : Option RotatableVerificationMethod :=
  methods.find? (fun v => Carries publicKey v)

variable {R : Runtime} {doc doc' : RotatableDIDDocument} {publicKey : Str} {attestedAt : Option Int}

theorem isKeyActive_iff : isKeyActive doc publicKey attestedAt = true ↔
    ∃ vm, heldBy publicKey doc.verificationMethod = some vm ∧ vm.retiredAt.getD [] = [] ∧ vm.id ∈ doc.authentication ∧
      ∀ pending, doc.pendingRotation = some pending →
        pending.newKeyId = vm.id ∨ supersededNow pending attestedAt = false := by
  rw [isKeyActive, ← heldBy]
  cases hheld : heldBy publicKey doc.verificationMethod with
  | none =>
    refine iff_of_false Bool.false_ne_true ?_
    rintro ⟨vm, hvm, -⟩
    cases hvm
  | some vm =>
    have hexists : (∃ found, some vm = some found ∧ found.retiredAt.getD [] = [] ∧ found.id ∈ doc.authentication ∧
        ∀ pending, doc.pendingRotation = some pending →
          pending.newKeyId = found.id ∨ supersededNow pending attestedAt = false) ↔
        vm.retiredAt.getD [] = [] ∧ vm.id ∈ doc.authentication ∧ ∀ pending, doc.pendingRotation = some pending →
          pending.newKeyId = vm.id ∨ supersededNow pending attestedAt = false := by
      refine ⟨?_, fun h => ⟨vm, rfl, h⟩⟩
      rintro ⟨found, heq, h⟩
      exact Option.some.inj heq ▸ h
    rw [hexists]
    by_cases hretired : vm.retiredAt.getD [] = []
    · by_cases hmem : vm.id ∈ doc.authentication
      · simp only [if_neg (not_not_intro hretired), if_neg (not_not_intro hmem)]
        cases hp : doc.pendingRotation with
        | none => exact iff_of_true rfl ⟨hretired, hmem, fun pending hsome => by cases hsome⟩
        | some pending =>
          by_cases hout : pending.newKeyId ≠ vm.id ∧ supersededNow pending attestedAt = true
          · simp only [if_pos hout]
            refine iff_of_false Bool.false_ne_true ?_
            intro h
            obtain hnew | hlater := h.2.2 pending rfl
            · exact hout.1 hnew
            · rw [hlater] at hout
              cases hout.2
          · simp only [if_neg hout]
            refine iff_of_true trivial ⟨hretired, hmem, ?_⟩
            intro found hfound
            cases hfound
            rw [not_and_or, not_not, Bool.not_eq_true] at hout
            exact hout
      · simp only [if_neg (not_not_intro hretired), if_pos hmem]
        exact iff_of_false Bool.false_ne_true fun h => hmem h.2.1
    · simp only [ne_eq, hretired, not_false_eq_true, if_true]
      exact iff_of_false Bool.false_ne_true fun h => h.1

theorem announce_ok {now : Int} {privateKey newKey : Str} {mode : RotationMode} {delay : Option JsNumber}
    (h : announceKeyRotation R doc now privateKey newKey mode delay = .ok doc') :
    doc.pendingRotation = none ∧ ∃ activationTime oldKey activeId signature,
      activationTimeOf now (delayMs mode delay) = .ok activationTime ∧
      doc' = announced doc (toISOString now) oldKey newKey mode activationTime signature activeId := by
  rw [announceKeyRotation] at h
  by_cases hsome : doc.pendingRotation.isSome = true
  · rw [if_pos hsome] at h
    cases h
  rw [if_neg hsome] at h
  obtain ⟨activationTime, htime, h⟩ := bind_eq_ok.mp h
  obtain ⟨⟨oldKey, activeVm⟩, -, h⟩ := bind_eq_ok.mp h
  obtain ⟨signature, -, h⟩ := bind_eq_ok.mp h
  cases h
  exact ⟨Option.not_isSome_iff_eq_none.mp hsome, activationTime, oldKey, activeVm.id, signature, htime, rfl⟩

theorem activate_ok {now : Option Int} (h : activateKeyRotation doc now = .ok doc') :
    ∃ pending ms, doc.pendingRotation = some pending ∧ doc' = activated doc pending (toISOString ms) := by
  rw [activateKeyRotation] at h
  cases hp : doc.pendingRotation with
  | none =>
    rw [hp] at h
    cases h
  | some pending =>
    simp only [hp] at h
    cases hparse : parseRfc3339 (.str pending.activationTime) with
    | error reason =>
      simp only [hparse] at h
      cases h
    | ok activation =>
      simp only [hparse] at h
      cases now with
      | none => cases h
      | some ms =>
        simp only at h
        by_cases hearly : ms < activation
        · rw [if_pos hearly] at h
          cases h
        · rw [if_neg hearly] at h
          cases h
          exact ⟨pending, ms, rfl, rfl⟩

section Methods
variable {methods : List RotatableVerificationMethod} {vm : RotatableVerificationMethod} {id date : Str}

theorem heldBy_cons (vm : RotatableVerificationMethod) (methods : List RotatableVerificationMethod) :
    heldBy publicKey (vm :: methods) = if Carries publicKey vm then some vm else heldBy publicKey methods := by
  rw [heldBy, List.find?_cons]
  by_cases h : Carries publicKey vm
  · rw [decide_eq_true h, if_pos h]
  · rw [decide_eq_false h, if_neg h]
    rfl

theorem findMethod_cons (name : Str) (vm : RotatableVerificationMethod) (methods : List RotatableVerificationMethod) :
    findMethod name (vm :: methods) = if vm.id = name then some vm else findMethod name methods := by
  rw [findMethod, List.find?_cons]
  by_cases h : vm.id = name
  · rw [decide_eq_true h, if_pos h]
  · rw [decide_eq_false h, if_neg h]
    rfl

theorem heldBy_append (h : heldBy publicKey methods = some vm) (added : List RotatableVerificationMethod) :
    heldBy publicKey (methods ++ added) = some vm := by
  rw [heldBy] at h
  rw [heldBy, List.find?_append, h]
  rfl

theorem heldBy_retire (h : heldBy publicKey methods = some vm) (id date : Str) :
    ∃ vm', heldBy publicKey (retire id date methods) = some vm' ∧ vm'.id = vm.id ∧ (vm.id ≠ id → vm' = vm) := by
  induction methods with
  | nil => cases h
  | cons first rest ih =>
    rw [heldBy_cons] at h
    rw [retire]
    by_cases hfirst : Carries publicKey first
    · rw [if_pos hfirst] at h
      obtain rfl : first = vm := Option.some.inj h
      by_cases hid : first.id = id
      · have hmarked : Carries publicKey { first with retiredAt := some date } := hfirst
        rw [if_pos hid, heldBy_cons, if_pos hmarked]
        exact ⟨_, rfl, rfl, fun hne => absurd hid hne⟩
      · rw [if_neg hid, heldBy_cons, if_pos hfirst]
        exact ⟨_, rfl, rfl, fun _ => rfl⟩
    · rw [if_neg hfirst] at h
      by_cases hid : first.id = id
      · have hmarked : ¬ Carries publicKey { first with retiredAt := some date } := hfirst
        rw [if_pos hid, heldBy_cons, if_neg hmarked]
        exact ⟨vm, h, rfl, fun _ => rfl⟩
      · rw [if_neg hid, heldBy_cons, if_neg hfirst]
        exact ih h

theorem heldBy_retireAll (date : Str) (ids : List Str) :
    ∀ {methods : List RotatableVerificationMethod} {vm : RotatableVerificationMethod},
    heldBy publicKey methods = some vm →
    ∃ vm', heldBy publicKey (ids.foldl (fun methods id => retire id date methods) methods) = some vm' ∧
      vm'.id = vm.id ∧ (vm.id ∉ ids → vm' = vm) := by
  induction ids with
  | nil => exact fun h => ⟨_, h, rfl, fun _ => rfl⟩
  | cons id rest ih =>
    intro methods vm h
    obtain ⟨vm', h', hid, hsame⟩ := heldBy_retire h id date
    obtain ⟨vm'', h'', hid', hsame'⟩ := ih h'
    refine ⟨vm'', h'', hid'.trans hid, ?_⟩
    intro hnot
    rw [List.mem_cons, not_or] at hnot
    rw [hsame' (hid ▸ hnot.2), hsame hnot.1]

theorem keyOf_retire (name id date : Str) (methods : List RotatableVerificationMethod) :
    keyOf (findMethod name (retire id date methods)) = keyOf (findMethod name methods) := by
  induction methods with
  | nil => rfl
  | cons first rest ih =>
    rw [retire, findMethod_cons name first]
    by_cases hid : first.id = id
    · rw [if_pos hid, findMethod_cons]
      by_cases hname : first.id = name
      · rw [if_pos hname, if_pos hname]
        rfl
      · rw [if_neg hname, if_neg hname]
    · rw [if_neg hid, findMethod_cons]
      by_cases hname : first.id = name
      · rw [if_pos hname, if_pos hname]
      · rw [if_neg hname, if_neg hname, ih]

theorem keyOf_retireAll (name date : Str) (ids : List Str) : ∀ methods : List RotatableVerificationMethod,
    keyOf (findMethod name (ids.foldl (fun methods id => retire id date methods) methods)) =
      keyOf (findMethod name methods) := by
  induction ids with
  | nil => exact fun _ => rfl
  | cons id rest ih => exact fun methods => (ih _).trans (keyOf_retire name id date methods)

end Methods

/-- The signature of a pending rotation verifies over what the log will say of it. -/
def PendingSigned (R : Runtime) (doc : RotatableDIDDocument) (pending : PendingRotation) : Prop :=
  Signed R (keyOf (doc.verificationMethod.find?
      (fun vm => decide (vm.id ∈ doc.authentication.filter (fun id => id ≠ pending.newKeyId)))))
    (keyOf (findMethod pending.newKeyId doc.verificationMethod)) pending.mode pending.activationTime
    pending.rotationSignature

/-- The activation time is read, and the attestation is not from then on. -/
def Precedes (attestedAt : Option Int) (activationTime : Str) : Prop :=
  ∃ activation, parseRfc3339 (.str activationTime) = .ok activation ∧ ∀ ms, attestedAt = some ms → ms < activation

/-- The call does not retire the method of the key: it throws, or announces a planned rotation for after the
attestation, or completes the rotation that brought the key's own method in. -/
def Spares (R : Runtime) (publicKey : Str) (attestedAt : Option Int) (doc : RotatableDIDDocument) : Call → Prop
  | .announce now oldPrivateKey newPublicKey mode activationDelayMs =>
    (∃ e, announceKeyRotation R doc now oldPrivateKey newPublicKey mode activationDelayMs = .error e) ∨
      mode = .planned ∧ ∃ activationTime, activationTimeOf now (delayMs mode activationDelayMs) = .ok activationTime ∧
        Precedes attestedAt activationTime
  | .activate now =>
    (∃ e, activateKeyRotation doc now = .error e) ∨
      ∃ pending vm, doc.pendingRotation = some pending ∧ heldBy publicKey doc.verificationMethod = some vm ∧
        vm.id = pending.newKeyId ∧ PendingSigned R doc pending

def SparedRun (R : Runtime) (publicKey : Str) (attestedAt : Option Int) : RotatableDIDDocument → List Call → Prop
  | _, [] => True
  | doc, call :: rest => Spares R publicKey attestedAt doc call ∧ SparedRun R publicKey attestedAt (step R doc call) rest

theorem supersededNow_false_iff {pending : PendingRotation} :
    supersededNow pending attestedAt = false ↔ Precedes attestedAt pending.activationTime := by
  rw [supersededNow, Precedes]
  cases hparse : parseRfc3339 (.str pending.activationTime) with
  | error reason =>
    refine iff_of_false Bool.true_eq_false.mp ?_
    rintro ⟨activation, heq, -⟩
    cases heq
  | ok activation =>
    cases attestedAt with
    | none => exact iff_of_true rfl ⟨activation, rfl, fun ms h => by cases h⟩
    | some now =>
      rw [decide_eq_false_iff_not, Int.not_le]
      constructor
      · intro hlt
        refine ⟨activation, rfl, ?_⟩
        intro ms hms
        cases hms
        exact hlt
      · intro h
        obtain ⟨found, hfound, hlt⟩ := h
        cases hfound
        exact hlt now rfl

theorem verifyRotationChain_append {entry : DIDRotationEntry} (h : doc'.rotationLog = doc.rotationLog ++ [entry]) :
    verifyRotationChain R doc' = true ↔ verifyRotationChain R doc = true ∧
      Signed R entry.previousKey entry.newKey entry.mode entry.activationTime entry.rotationSignature := by
  rw [verifyRotationChain_iff, verifyRotationChain_iff, h, List.forall_mem_append, List.forall_mem_singleton]

theorem verifyRotationChain_activated (pending : PendingRotation) (completedAt : Str) :
    verifyRotationChain R (activated doc pending completedAt) = true ↔
      verifyRotationChain R doc = true ∧ PendingSigned R doc pending := by
  have hlog : (activated doc pending completedAt).rotationLog = doc.rotationLog ++ [_] := rfl
  rw [verifyRotationChain_append hlog, PendingSigned, keyOf_retireAll]

theorem heldBy_activated {vm : RotatableVerificationMethod} (h : heldBy publicKey doc.verificationMethod = some vm)
    (pending : PendingRotation) (completedAt : Str) :
    ∃ vm', heldBy publicKey (activated doc pending completedAt).verificationMethod = some vm' ∧ vm'.id = vm.id ∧
      (vm.id = pending.newKeyId → vm' = vm) := by
  obtain ⟨vm', hheld, hid, hsame⟩ :=
    heldBy_retireAll completedAt (doc.authentication.filter (fun id => id ≠ pending.newKeyId)) h
  refine ⟨vm', hheld, hid, ?_⟩
  intro hnew
  refine hsame ?_
  rw [List.mem_filter, decide_eq_true_iff, not_and_not_right]
  exact fun _ => hnew

theorem keyCheck_step {call : Call} (h : keyCheck R doc publicKey attestedAt = true)
    (hspares : Spares R publicKey attestedAt doc call) :
    keyCheck R (step R doc call) publicKey attestedAt = true := by
  rw [keyCheck, Bool.and_eq_true, isKeyActive_iff] at h
  obtain ⟨hchain, vm, hheld, hlive, hmem, hpending⟩ := h
  have hkept : keyCheck R doc publicKey attestedAt = true := by
    rw [keyCheck, Bool.and_eq_true, isKeyActive_iff]
    exact ⟨hchain, vm, hheld, hlive, hmem, hpending⟩
  cases call with
  | announce now privateKey newKey mode delay =>
    rw [step]
    cases hcall : announceKeyRotation R doc now privateKey newKey mode delay with
    | error e => exact hkept
    | ok doc' =>
      obtain ⟨e, herror⟩ | ⟨rfl, activationTime, htime, hprecedes⟩ := hspares
      · rw [hcall] at herror
        cases herror
      · obtain ⟨-, activationTime', oldKey, activeId, signature, htime', rfl⟩ := announce_ok hcall
        cases htime.symm.trans htime'
        rw [keyCheck, Bool.and_eq_true, isKeyActive_iff]
        refine ⟨hchain, vm, heldBy_append hheld _, hlive, List.mem_append_left _ hmem, ?_⟩
        intro pending hp
        cases hp
        exact .inr (supersededNow_false_iff.mpr hprecedes)
  | activate now =>
    rw [step]
    cases hcall : activateKeyRotation doc now with
    | error e => exact hkept
    | ok doc' =>
      obtain ⟨e, herror⟩ | ⟨pending, vm', hp, hheld', hnew, hsigned⟩ := hspares
      · rw [hcall] at herror
        cases herror
      · obtain ⟨pending', ms, hp', rfl⟩ := activate_ok hcall
        cases hp.symm.trans hp'
        cases hheld.symm.trans hheld'
        obtain ⟨vm', hheld', -, hsame⟩ := heldBy_activated hheld pending (toISOString ms)
        rw [hsame hnew] at hheld'
        rw [keyCheck, Bool.and_eq_true, isKeyActive_iff]
        exact ⟨(verifyRotationChain_activated pending _).mpr ⟨hchain, hsigned⟩, vm, hheld', hlive,
          List.mem_singleton.mpr hnew, fun pending' hp' => by cases hp'⟩

theorem spares_of_keyCheck (hshape : Shape doc) {call : Call} (h : keyCheck R doc publicKey attestedAt = true)
    (hafter : keyCheck R (step R doc call) publicKey attestedAt = true) : Spares R publicKey attestedAt doc call := by
  rw [keyCheck, Bool.and_eq_true, isKeyActive_iff] at h hafter
  obtain ⟨-, vm, hheld, -, -, -⟩ := h
  obtain ⟨hchain, vm', hheld', -, hmem', hpending'⟩ := hafter
  have hvm : vm ∈ doc.verificationMethod := List.mem_of_find?_eq_some hheld
  cases call with
  | announce now privateKey newKey mode delay =>
    rw [step] at hheld' hmem' hpending'
    cases hcall : announceKeyRotation R doc now privateKey newKey mode delay with
    | error e => exact .inl ⟨e, hcall⟩
    | ok doc' =>
      rw [hcall] at hheld' hmem' hpending'
      obtain ⟨-, activationTime, oldKey, activeId, signature, htime, rfl⟩ := announce_ok hcall
      cases mode with
      | planned =>
        refine .inr ⟨rfl, activationTime, htime, ?_⟩
        cases (heldBy_append hheld [newMethod doc newKey]).symm.trans hheld'
        obtain hnew | hlater := hpending' _ rfl
        · exact absurd hnew.symm (hshape.old_ne_new hvm newKey)
        · exact supersededNow_false_iff.mp hlater
      | emergency =>
        obtain ⟨found, hfound, hid, -⟩ := heldBy_retire (heldBy_append hheld [newMethod doc newKey]) activeId
          (toISOString now)
        cases hfound.symm.trans hheld'
        have hnew := List.mem_singleton.mp hmem'
        exact absurd (hid.symm.trans hnew) (hshape.old_ne_new hvm newKey)
  | activate now =>
    rw [step] at hheld' hmem' hchain
    cases hcall : activateKeyRotation doc now with
    | error e => exact .inl ⟨e, hcall⟩
    | ok doc' =>
      rw [hcall] at hheld' hmem' hchain
      obtain ⟨pending, ms, hp, rfl⟩ := activate_ok hcall
      obtain ⟨found, hfound, hid, -⟩ := heldBy_activated hheld pending (toISOString ms)
      cases hfound.symm.trans hheld'
      exact .inr ⟨pending, vm, hp, hheld, hid.symm.trans (List.mem_singleton.mp hmem'),
        ((verifyRotationChain_activated pending _).mp hchain).2⟩

theorem keyCheck_run (calls : List Call) : ∀ doc, keyCheck R doc publicKey attestedAt = true →
    SparedRun R publicKey attestedAt doc calls →
    ∀ earlier, earlier <+: calls → keyCheck R (run R doc earlier) publicKey attestedAt = true := by
  induction calls with
  | nil =>
    intro doc h _ earlier hearlier
    rw [List.prefix_nil.mp hearlier]
    exact h
  | cons call rest ih =>
    intro doc h hspared earlier hearlier
    obtain ⟨hspares, hspared⟩ := hspared
    cases earlier with
    | nil => exact h
    | cons call' earlier =>
      obtain ⟨rfl, hrest⟩ := List.cons_prefix_cons.mp hearlier
      exact ih _ (keyCheck_step h hspares) hspared earlier hrest

theorem spared_of_keyCheck (calls : List Call) : ∀ doc, Shape doc →
    (∀ earlier, earlier <+: calls → keyCheck R (run R doc earlier) publicKey attestedAt = true) →
    SparedRun R publicKey attestedAt doc calls := by
  induction calls with
  | nil => exact fun _ _ _ => trivial
  | cons call rest ih =>
    intro doc hshape h
    refine ⟨spares_of_keyCheck hshape (h [] List.nil_prefix)
      (h [call] (List.cons_prefix_cons.mpr ⟨rfl, List.nil_prefix⟩)), ih _ (shape_step hshape call) ?_⟩
    intro earlier hearlier
    exact h (call :: earlier) (List.cons_prefix_cons.mpr ⟨rfl, hearlier⟩)

/-- An attestation whose key check passes passes it against every later document of a run that spares the key;
where the document comes from this module's calls, no other run keeps the check. -/
theorem attestation_stays_verifiable (R : Runtime) (newDate : Str → Option Int) (c : ContextProvenanceAttestation)
    (doc : RotatableDIDDocument) (calls : List Call) (h : producerKeyActive R newDate doc c = true) :
    (SparedRun R c.producer_pubkey (newDate c.attested_at) doc calls →
      ∀ earlier, earlier <+: calls → producerKeyActive R newDate (run R doc earlier) c = true) ∧
    (∀ passport created before, createDIDDocument passport = .ok created → doc = run R created before →
      ((∀ earlier, earlier <+: calls → producerKeyActive R newDate (run R doc earlier) c = true) ↔
        SparedRun R c.producer_pubkey (newDate c.attested_at) doc calls)) := by
  refine ⟨keyCheck_run calls doc h, ?_⟩
  intro passport created before hcreated hdoc
  have hshape : Shape doc := by
    rw [hdoc]
    exact shape_run (shape_create hcreated) before
  exact ⟨spared_of_keyCheck calls doc hshape, keyCheck_run calls doc h⟩

section Sample
open DelegationChain (rootKey childKey childPrivateKey)

/-- An attestation by the key the first of the sample rotations brings in, at that instant. -/
def sampleAttestation : ContextProvenanceAttestation where
  action_ref := lit "r1"
  producer_did := (createDID rootKey).toOption.getD []
  producer_pubkey := childKey
  attested_at := lit "2026-01-01T00:00:00Z"
  mode := .fullSet
  partitions := []
  root := []
  producer_attestation := none
  signature := []

def sampleDate (text : Str) : Option Int := if text = lit "2026-01-01T00:00:00Z" then some 1767225600000 else none

def plannedAway : Call := .announce 1767225600000 childPrivateKey rootKey .planned none

def rotated (created : RotatableDIDDocument) : RotatableDIDDocument := run sampleRuntime created (sampleCalls.take 1)

theorem sample_attested : ∃ created, createDIDDocument samplePassport = .ok created ∧
    producerKeyActive sampleRuntime sampleDate (rotated created) sampleAttestation = true := by
  refine ⟨_, rfl, ?_⟩
  decide +kernel

theorem plannedAway_time :
    activationTimeOf 1767225600000 (delayMs .planned none) = .ok (lit "2026-01-02T00:00:00.000Z") := by
  have htime : (activationTimeOf 1767225600000 (delayMs .planned none)).toOption.map (fun text => text) =
      some (lit "2026-01-02T00:00:00.000Z") := by decide +kernel
  obtain ⟨text, htext, rfl⟩ := exists_ok_of_map htime
  exact htext

theorem plannedAway_spares (doc : RotatableDIDDocument) :
    SparedRun sampleRuntime childKey (some 1767225600000) doc [plannedAway] := by
  refine ⟨.inr ⟨rfl, _, plannedAway_time, 1767312000000, by decide, ?_⟩, trivial⟩
  intro ms hms
  cases hms
  decide

theorem attestation_stays_verifiable_planned : ∃ created, createDIDDocument samplePassport = .ok created ∧
    ∀ earlier, earlier <+: [plannedAway] → producerKeyActive sampleRuntime sampleDate
      (run sampleRuntime (rotated created) earlier) sampleAttestation = true := by
  obtain ⟨created, hcreated, hattested⟩ := sample_attested
  exact ⟨created, hcreated, (attestation_stays_verifiable sampleRuntime sampleDate sampleAttestation _ [plannedAway]
    hattested).1 (plannedAway_spares _)⟩

/-- The key is in force when it attests and is retired a day later; from then on the check at the instant of the
attestation fails. -/
theorem retired_key_loses_attestation : ∃ created, createDIDDocument samplePassport = .ok created ∧
    producerKeyActive sampleRuntime sampleDate (rotated created) sampleAttestation = true ∧
    (heldBy childKey (run sampleRuntime (rotated created) (sampleCalls.drop 1)).verificationMethod).map (·.retiredAt) =
      some (some (lit "2026-01-02T00:00:00.000Z")) ∧
    producerKeyActive sampleRuntime sampleDate (run sampleRuntime (rotated created) (sampleCalls.drop 1))
      sampleAttestation = false := by
  obtain ⟨created, hcreated, hattested⟩ := sample_attested
  refine ⟨created, hcreated, hattested, ?_⟩
  cases hcreated
  decide +kernel

end Sample

end AgentPassport.AttestationStanding
