import AgentPassport.RotationHistory

/-! Signatures and the rotation of keys (`core/did-uri.ts`): which method a DID URI names in a
document, whether it was retired when a signature was made, and that later rotations do not change
the answer. A document's methods are only appended to and their retirement is written once. -/
namespace AgentPassport.DidUri
open JsText Js Rfc3339 Outcome KeyRotation
open LegacyDelegation (toISOString)
open Multibase (hexToMultibase)

structure ParsedDidUri where
  agentId : Str
  keyRef : Str
  deriving DecidableEq

def parseDidUri (s : Str) : Option ParsedDidUri :=
  if !(lit "did:").isPrefixOf s then none
  else
    match s.findIdx? (· = 0x23) with
    | none => none
    | some hashIdx =>
      if hashIdx ≤ 4 then none
      else if (s.take hashIdx).length = 0 ∨ (s.drop (hashIdx + 1)).length = 0 then none
      else if (s.drop (hashIdx + 1)).any (· = 0x23) then none
      else some ⟨s.take hashIdx, s.drop (hashIdx + 1)⟩

def isFinite : JsNumber → Bool
  | .finite _ => true
  | _ => false

/-- Whether a method was retired at the signing instant. A retirement that cannot be read, or clocks
that are no instants, count as retired. -/
def isRetired (retiredAt : Option Str) (now issued : JsNumber) : Bool :=
  match retiredAt with
  | none => false
  | some text =>
    if text = [] then false
    else
      match parseRfc3339 (.str text) with
      | .error _ => true
      | .ok ms => if !isFinite now || !isFinite issued then true else (JsNumber.ofInt ms).le issued

structure ResolveVerificationMethodResult where
  method : RotatableVerificationMethod
  retired : Bool
  deriving DecidableEq

/-- The verification time defaults to the clock, the signing time to the verification time. -/
def resolveVerificationMethod (clock : JsNumber) (didDoc : RotatableDIDDocument) (didUri : Str)
    (nowMs issuedAtMs : Option JsNumber) : Option ResolveVerificationMethodResult :=
  match parseDidUri didUri with
  | none => none
  | some parsed =>
    if didDoc.id ≠ parsed.agentId then none
    else
      match findMethod didUri didDoc.verificationMethod with
      | none => none
      | some method =>
        let now := nowMs.getD clock
        some ⟨method, isRetired method.retiredAt now (issuedAtMs.getD now)⟩

/-- What becomes of a method: it may be marked as retired, by a text of the kind given, if it was not. -/
structure Ages (P : Str → Prop) (vm vm' : RotatableVerificationMethod) : Prop where
  id : vm'.id = vm.id
  controller : vm'.controller = vm.controller
  key : vm'.publicKeyMultibase = vm.publicKeyMultibase
  kept : ∀ r, vm.retiredAt = some r → vm'.retiredAt = some r
  marked : ∀ r, vm'.retiredAt = some r → vm.retiredAt = some r ∨ P r

/-- Every method stays in its place, marked at most. -/
def Extends (P : Str → Prop) (methods methods' : List RotatableVerificationMethod) : Prop :=
  ∀ (i : Nat) (vm : RotatableVerificationMethod), methods[i]? = some vm → ∃ vm', methods'[i]? = some vm' ∧ Ages P vm vm'

section Ages
variable {P Q : Str → Prop} {vm vm' vm'' : RotatableVerificationMethod}
  {methods methods' methods'' : List RotatableVerificationMethod}

theorem Ages.refl (vm : RotatableVerificationMethod) : Ages P vm vm :=
  ⟨rfl, rfl, rfl, fun _ h => h, fun _ h => .inl h⟩

theorem Ages.trans (h : Ages P vm vm') (h' : Ages P vm' vm'') : Ages P vm vm'' where
  id := h'.id.trans h.id
  controller := h'.controller.trans h.controller
  key := h'.key.trans h.key
  kept r hr := h'.kept r (h.kept r hr)
  marked r hr := by
    obtain hold | hnew := h'.marked r hr
    · exact h.marked r hold
    · exact .inr hnew

theorem Ages.mono (hPQ : ∀ r, P r → Q r) (h : Ages P vm vm') : Ages Q vm vm' :=
  ⟨h.id, h.controller, h.key, h.kept, fun r hr => (h.marked r hr).imp_right (hPQ r)⟩

theorem Extends.refl (methods : List RotatableVerificationMethod) : Extends P methods methods :=
  fun _ vm hvm => ⟨vm, hvm, Ages.refl vm⟩

theorem Extends.append (methods added : List RotatableVerificationMethod) : Extends P methods (methods ++ added) := by
  intro i vm hvm
  have hi := (List.getElem?_eq_some_iff.mp hvm).1
  exact ⟨vm, (List.getElem?_append_left hi).trans hvm, Ages.refl vm⟩

theorem Extends.mono (hPQ : ∀ r, P r → Q r) (h : Extends P methods methods') : Extends Q methods methods' := by
  intro i vm hvm
  obtain ⟨vm', hvm', hages⟩ := h i vm hvm
  exact ⟨vm', hvm', hages.mono hPQ⟩

theorem Extends.trans (h : Extends P methods methods') (h' : Extends P methods' methods'') :
    Extends P methods methods'' := by
  intro i vm hvm
  obtain ⟨vm', hvm', hages⟩ := h i vm hvm
  obtain ⟨vm'', hvm'', hages'⟩ := h' i vm' hvm'
  exact ⟨vm'', hvm'', hages.trans hages'⟩

theorem extends_retire {id stamp : Str} (hlive : ∀ vm ∈ methods, vm.id = id → vm.retiredAt = none) (hP : P stamp) :
    Extends P methods (retire id stamp methods) := by
  induction methods with
  | nil =>
    intro i vm hvm
    cases hvm
  | cons first rest ih =>
    obtain ⟨hfirst, hrest⟩ := List.forall_mem_cons.mp hlive
    intro i vm hvm
    rw [retire]
    by_cases hid : first.id = id
    · rw [if_pos hid]
      cases i with
      | zero =>
        cases hvm
        refine ⟨_, rfl, rfl, rfl, rfl, fun r hr => ?_, fun r hr => ?_⟩
        · rw [hfirst hid] at hr
          cases hr
        · cases hr
          exact .inr hP
      | succ i => exact ⟨vm, hvm, Ages.refl vm⟩
    · rw [if_neg hid]
      cases i with
      | zero =>
        cases hvm
        exact ⟨first, rfl, Ages.refl first⟩
      | succ i => exact ih hrest i vm hvm

theorem retire_ids (id stamp : Str) (methods : List RotatableVerificationMethod) :
    (retire id stamp methods).map RotatableVerificationMethod.id = methods.map RotatableVerificationMethod.id := by
  induction methods with
  | nil => rfl
  | cons first rest ih =>
    rw [retire]
    split
    · rfl
    · rw [List.map_cons, List.map_cons, ih]

end Ages

/-- Method ids count from one; the authentication methods are the one in use and, while a rotation is
pending, the one announced, and neither is retired. -/
structure Sound (doc : RotatableDIDDocument) : Prop where
  ids : doc.verificationMethod.map RotatableVerificationMethod.id =
    (List.range doc.verificationMethod.length).map (fun i => keyIdForPublicKey doc.id (i + 1))
  live : ∀ id ∈ doc.authentication, ∀ vm ∈ doc.verificationMethod, vm.id = id → vm.retiredAt = none
  settled : doc.pendingRotation = none → ∃ current, doc.authentication = [current]
  pending : ∀ p, doc.pendingRotation = some p →
    (∃ current, doc.authentication = [current, p.newKeyId] ∧ current ≠ p.newKeyId) ∧
      ∃ activation, formatRfc3339 activation = .ok p.activationTime

section Sound
variable {R : Runtime} {doc doc' : RotatableDIDDocument}

theorem Sound.nodup (h : Sound doc) : (doc.verificationMethod.map RotatableVerificationMethod.id).Nodup := by
  rw [h.ids]
  exact List.Nodup.map (fun i j hij => Nat.succ.inj (RotationHistory.keyId_injective hij)) List.nodup_range

theorem Sound.id_eq (h : Sound doc) {vm : RotatableVerificationMethod} (hvm : vm ∈ doc.verificationMethod) :
    ∃ i < doc.verificationMethod.length, vm.id = keyIdForPublicKey doc.id (i + 1) := by
  have hmem := List.mem_map_of_mem (f := RotatableVerificationMethod.id) hvm
  rw [h.ids] at hmem
  obtain ⟨i, hi, heq⟩ := List.mem_map.mp hmem
  exact ⟨i, List.mem_range.mp hi, heq.symm⟩

theorem Sound.fresh (h : Sound doc) (newPublicKey : Str) :
    ∀ vm ∈ doc.verificationMethod, vm.id ≠ (newMethod doc newPublicKey).id := by
  intro vm hvm heq
  obtain ⟨i, hi, hid⟩ := h.id_eq hvm
  have hindex := RotationHistory.keyId_injective (hid.symm.trans heq)
  rw [nextKeyIndex] at hindex
  omega

theorem Sound.ids_append (h : Sound doc) (newPublicKey : Str) :
    (doc.verificationMethod ++ [newMethod doc newPublicKey]).map RotatableVerificationMethod.id =
      (List.range (doc.verificationMethod.length + 1)).map (fun i => keyIdForPublicKey doc.id (i + 1)) := by
  rw [List.map_append, h.ids, List.range_succ, List.map_append]
  rfl

theorem sound_create {passport : Passport} (h : createDIDDocument passport = .ok doc) : Sound doc := by
  obtain ⟨did, hdid, h⟩ := bind_eq_ok.mp h
  cases h
  refine ⟨?_, ?_, fun _ => ⟨_, rfl⟩, fun p hp => nomatch hp⟩
  · rw [RotationHistory.first_keyId]
    rfl
  · intro id _ vm hvm _
    rw [List.mem_singleton.mp hvm]

/-- What a call that succeeds may write as a mark: its own reading, of a rotation at once only where it
is an instant of a four-digit year, of a completion from the activation time on. -/
inductive Stamps (doc : RotatableDIDDocument) : Call → Str → Prop where
  | announce {now : Int} {oldPrivateKey newPublicKey : Str} {mode : RotationMode} {delay : Option JsNumber} {text : Str}
      (h : formatRfc3339 now = .ok text) : Stamps doc (.announce now oldPrivateKey newPublicKey mode delay) (toISOString now)
  | activate {ms : Int} (hpending : doc.pendingRotation.isSome = true) (h : MIN_INSTANT ≤ ms) :
      Stamps doc (.activate (some ms)) (toISOString ms)

theorem format_of_immediate {now : Int} {text : Str} (h : activationTimeOf now (.ofInt 0) = .ok text) :
    ∃ s, formatRfc3339 now = .ok s := by
  obtain ⟨zero, hzero, hzscaled⟩ := ofInt_exact_int (z := 0) (by decide)
  rw [Int.zero_mul] at hzscaled
  rw [activationTimeOf, hzero] at h
  cases hreading : JsNumber.ofInt now with
  | nan =>
    rw [hreading] at h
    cases h
  | infinite neg =>
    rw [hreading] at h
    cases h
  | finite e =>
    have hsum : e.scaled = e.scaled + zero.scaled := by rw [hzscaled, Int.add_zero]
    obtain ⟨d, hd, hscaled⟩ := add_exact hsum
    rw [← hsum] at hscaled
    rw [hreading, hd] at h
    cases hformat : formatRfc3339 d.trunc with
    | error _ =>
      simp only [hformat] at h
      cases h
    | ok s =>
      by_cases hsmall : now.natAbs < 2 ^ 53
      · obtain ⟨e', he', hexact⟩ := ofInt_exact_int hsmall
        have hsame : e = e' := JsNumber.finite.inj (hreading.symm.trans he')
        have htrunc : d.trunc = now := by
          rw [Double.trunc, hscaled, hsame, hexact]
          exact Int.mul_tdiv_cancel now scaleOne_pos.ne'
        exact ⟨s, htrunc ▸ hformat⟩
      · have hlarge := ofInt_large (Nat.not_lt.mp hsmall) hreading
        have hrange := range_of_format hformat
        have htrunc : d.trunc.natAbs = e.scaled.natAbs / 2 ^ 1074 := by
          rw [Double.trunc, hscaled, Int.natAbs_tdiv, scaleOne, Int.natAbs_pow]
          rfl
        have hge : 2 ^ 53 ≤ d.trunc.natAbs := by
          rw [htrunc, Nat.le_div_iff_mul_le (by positivity)]
          exact hlarge
        rw [MIN_INSTANT, MAX_INSTANT] at hrange
        omega

/-- What a call does to a document. -/
structure Advances (doc : RotatableDIDDocument) (call : Call) (doc' : RotatableDIDDocument) : Prop where
  sound : Sound doc'
  id : doc'.id = doc.id
  methods : Extends (Stamps doc call) doc.verificationMethod doc'.verificationMethod

theorem retire_length (id stamp : Str) (methods : List RotatableVerificationMethod) :
    (retire id stamp methods).length = methods.length := by
  have hids := congrArg List.length (retire_ids id stamp methods)
  rwa [List.length_map, List.length_map] at hids

theorem activationTimeOf_ok {now : Int} {delay : JsNumber} {text : Str} (h : activationTimeOf now delay = .ok text) :
    ∃ activation, formatRfc3339 activation = .ok text := by
  rw [activationTimeOf] at h
  split at h
  · split at h
    · rename_i hformat
      cases h
      exact ⟨_, hformat⟩
    · cases h
  · cases h

variable {activeVm : RotatableVerificationMethod}

theorem checkOwnership_ok {oldPrivateKey oldPublicKey : Str}
    (h : checkOwnership R doc oldPrivateKey = .ok (oldPublicKey, activeVm)) :
    activeVm ∈ doc.verificationMethod ∧ doc.authentication.head? = some activeVm.id := by
  rw [checkOwnership] at h
  split at h
  · cases h
  · rename_i found hfound
    split at h
    · cases h
    · split at h
      · cases h
      · cases h
        obtain ⟨id, hhead, hfind⟩ := Option.bind_eq_some_iff.mp hfound
        rw [findMethod] at hfind
        have hid := List.find?_some hfind
        rw [decide_eq_true_eq] at hid
        exact ⟨List.mem_of_find?_eq_some hfind, hid ▸ hhead⟩

theorem announced_planned (h : Sound doc) (hpending : doc.pendingRotation = none)
    (hactive : activeVm ∈ doc.verificationMethod) (hhead : doc.authentication.head? = some activeVm.id)
    {activationTime : Str} (hactivation : ∃ activation, formatRfc3339 activation = .ok activationTime)
    (announcedAt oldPublicKey newPublicKey rotationSignature : Str) (call : Call) : Advances doc call
      (announced doc announcedAt oldPublicKey newPublicKey .planned activationTime rotationSignature activeVm.id) := by
  obtain ⟨current, hcurrent⟩ := h.settled hpending
  have hid : current = activeVm.id := by
    rw [hcurrent] at hhead
    exact Option.some.inj hhead
  refine ⟨⟨?_, ?_, fun hnone => (nomatch hnone), ?_⟩, rfl, Extends.append _ _⟩
  · have hlength : (doc.verificationMethod ++ [newMethod doc newPublicKey]).length = doc.verificationMethod.length + 1 :=
      List.length_append
    have hids := h.ids_append newPublicKey
    rw [← hlength] at hids
    exact hids
  · intro id hmem vm hvm heq
    obtain hvm | hvm := List.mem_append.mp hvm
    · obtain hmem | hmem := List.mem_append.mp hmem
      · exact h.live id hmem vm hvm heq
      · exact absurd (heq.trans (List.mem_singleton.mp hmem)) (h.fresh newPublicKey vm hvm)
    · rw [List.mem_singleton.mp hvm]
      rfl
  · intro p hp
    cases hp
    refine ⟨⟨current, ?_, ?_⟩, hactivation⟩
    · exact congrArg (· ++ [(newMethod doc newPublicKey).id]) hcurrent
    · rw [hid]
      exact h.fresh newPublicKey activeVm hactive

theorem announced_emergency (h : Sound doc) (hpending : doc.pendingRotation = none)
    (hactive : activeVm ∈ doc.verificationMethod) (hhead : doc.authentication.head? = some activeVm.id)
    {announcedAt oldPublicKey newPublicKey activationTime rotationSignature : Str} {call : Call}
    (hstamp : Stamps doc call announcedAt) : Advances doc call
      (announced doc announcedAt oldPublicKey newPublicKey .emergency activationTime rotationSignature activeVm.id) := by
  have hlive : ∀ vm ∈ doc.verificationMethod ++ [newMethod doc newPublicKey], vm.id = activeVm.id →
      vm.retiredAt = none := by
    intro vm hvm heq
    obtain hvm | hvm := List.mem_append.mp hvm
    · exact h.live _ (List.mem_of_head? hhead) vm hvm heq
    · rw [List.mem_singleton.mp hvm]
      rfl
  have hids := h.ids_append newPublicKey
  have hnodup : ((doc.verificationMethod ++ [newMethod doc newPublicKey]).map RotatableVerificationMethod.id).Nodup := by
    rw [hids]
    exact List.Nodup.map (fun i j hij => Nat.succ.inj (RotationHistory.keyId_injective hij)) List.nodup_range
  refine ⟨⟨?_, ?_, fun _ => ⟨_, rfl⟩, fun p hp => ?_⟩, rfl,
    (Extends.append _ _).trans (extends_retire hlive hstamp)⟩
  · have hlength : (announced doc announcedAt oldPublicKey newPublicKey .emergency activationTime rotationSignature
        activeVm.id).verificationMethod.length = doc.verificationMethod.length + 1 := by
      rw [announced, retire_length, List.length_append]
      rfl
    rw [hlength]
    exact (retire_ids _ _ _).trans hids
  · intro id hmem vm hvm heq
    have hnew : vm.id = (newMethod doc newPublicKey).id := heq.trans (List.mem_singleton.mp hmem)
    obtain ⟨hold, -⟩ | ⟨hid, -⟩ := RotationHistory.mem_retire hnodup hvm
    · obtain hold | hold := List.mem_append.mp hold
      · exact absurd hnew (h.fresh newPublicKey vm hold)
      · rw [List.mem_singleton.mp hold]
        rfl
    · exact absurd (hid.symm.trans hnew) (h.fresh newPublicKey activeVm hactive)
  · have hsame : doc.pendingRotation = some p := hp
    rw [hpending] at hsame
    cases hsame

theorem activated_advances (h : Sound doc) {p : PendingRotation} (hp : doc.pendingRotation = some p)
    {completedAt : Str} {call : Call} (hstamp : Stamps doc call completedAt) :
    Advances doc call (activated doc p completedAt) := by
  obtain ⟨⟨current, hauthentication, hne⟩, -⟩ := h.pending p hp
  have hold : doc.authentication.filter (fun id => id ≠ p.newKeyId) = [current] := by
    rw [hauthentication]
    simp [hne]
  have hmethods : (activated doc p completedAt).verificationMethod =
      retire current completedAt doc.verificationMethod := by
    simp only [activated, hold, List.foldl_cons, List.foldl_nil]
  have hcurrent : current ∈ doc.authentication := hauthentication ▸ List.mem_cons_self
  have hnew : p.newKeyId ∈ doc.authentication :=
    hauthentication ▸ List.mem_cons_of_mem _ (List.mem_singleton_self _)
  refine ⟨⟨?_, ?_, fun _ => ⟨_, rfl⟩, fun q hq => by cases hq⟩, rfl, ?_⟩
  · rw [hmethods, retire_length, retire_ids]
    exact h.ids
  · intro id hmem vm hvm heq
    rw [hmethods] at hvm
    have hid : id = p.newKeyId := List.mem_singleton.mp hmem
    obtain ⟨hvm, -⟩ | ⟨hretired, -⟩ := RotationHistory.mem_retire h.nodup hvm
    · exact h.live _ hnew vm hvm (heq.trans hid)
    · exact absurd (hretired.symm.trans (heq.trans hid)) hne
  · rw [hmethods]
    exact extends_retire (h.live current hcurrent) hstamp

theorem stay (h : Sound doc) (call : Call) : Advances doc call doc := ⟨h, rfl, Extends.refl _⟩

theorem step_advances (h : Sound doc) (call : Call) : Advances doc call (step R doc call) := by
  cases call with
  | announce now oldPrivateKey newPublicKey mode delay =>
    rw [step]
    cases hcall : announceKeyRotation R doc now oldPrivateKey newPublicKey mode delay with
    | error e => exact stay h _
    | ok doc' =>
      rw [announceKeyRotation] at hcall
      split at hcall
      · cases hcall
      · rename_i hsome
        have hpending := Option.not_isSome_iff_eq_none.mp hsome
        obtain ⟨activationTime, hactivation, hcall⟩ := bind_eq_ok.mp hcall
        obtain ⟨⟨oldPublicKey, activeVm⟩, hownership, hcall⟩ := bind_eq_ok.mp hcall
        obtain ⟨rotationSignature, -, hcall⟩ := bind_eq_ok.mp hcall
        obtain ⟨hactive, hhead⟩ := checkOwnership_ok hownership
        cases hcall
        cases mode with
        | planned => exact announced_planned h hpending hactive hhead (activationTimeOf_ok hactivation) _ oldPublicKey _ _ _
        | emergency =>
          obtain ⟨text, htext⟩ := format_of_immediate hactivation
          exact announced_emergency h hpending hactive hhead (.announce htext)
  | activate now =>
    rw [step]
    cases hcall : activateKeyRotation doc now with
    | error e => exact stay h _
    | ok doc' =>
      rw [activateKeyRotation] at hcall
      cases hpending : doc.pendingRotation with
      | none =>
        rw [hpending] at hcall
        cases hcall
      | some p =>
        obtain ⟨-, activation, hformat⟩ := h.pending p hpending
        rw [hpending] at hcall
        simp only [parse_of_format hformat] at hcall
        cases now with
        | none => cases hcall
        | some ms =>
          simp only at hcall
          split at hcall
          · cases hcall
          · rename_i hreached
            cases hcall
            have hrange := range_of_format hformat
            exact activated_advances h hpending (.activate (hpending ▸ rfl) (by omega))

/-- The calls of a run, with a condition on each in the document it meets. -/
def AllCalls (R : Runtime) (ok : RotatableDIDDocument → Call → Prop) : RotatableDIDDocument → List Call → Prop
  | _, [] => True
  | doc, call :: calls => ok doc call ∧ AllCalls R ok (step R doc call) calls

theorem run_extends {P : Str → Prop} {ok : RotatableDIDDocument → Call → Prop}
    (hP : ∀ doc call r, ok doc call → Stamps doc call r → P r) (calls : List Call) (h : Sound doc)
    (hok : AllCalls R ok doc calls) :
    Sound (run R doc calls) ∧ (run R doc calls).id = doc.id ∧
      Extends P doc.verificationMethod (run R doc calls).verificationMethod := by
  induction calls generalizing doc with
  | nil => exact ⟨h, rfl, Extends.refl _⟩
  | cons call calls ih =>
    obtain ⟨hcall, hrest⟩ := hok
    have hstep := step_advances (R := R) h call
    obtain ⟨hsound, hid, hextends⟩ := ih hstep.sound hrest
    refine ⟨hsound, hid.trans hstep.id, ?_⟩
    exact (hstep.methods.mono (fun r hr => hP doc call r hcall hr)).trans hextends

theorem allCalls_true (calls : List Call) (doc : RotatableDIDDocument) : AllCalls R (fun _ _ => True) doc calls := by
  induction calls generalizing doc with
  | nil => trivial
  | cons call calls ih => exact ⟨trivial, ih _⟩

theorem run_sound (h : Sound doc) (calls : List Call) :
    Sound (run R doc calls) ∧ (run R doc calls).id = doc.id ∧
      Extends (fun _ => True) doc.verificationMethod (run R doc calls).verificationMethod :=
  run_extends (fun _ _ _ _ _ => trivial) calls h (allCalls_true calls doc)

/-- What is used of a document's id. -/
structure PlainDid (did : Str) : Prop where
  scheme : (lit "did:").isPrefixOf did = true
  long : 4 < did.length
  noHash : 0x23 ∉ did

theorem plainDid_create {passport : Passport} (h : createDIDDocument passport = .ok doc) : PlainDid doc.id := by
  obtain ⟨did, hdid, h⟩ := bind_eq_ok.mp h
  cases h
  rw [createDID] at hdid
  split at hdid
  · cases hdid
  · cases hdid
    refine ⟨List.isPrefixOf_iff_prefix.mpr ⟨lit "aps:" ++ hexToMultibase passport.publicKey, rfl⟩, ?_, ?_⟩
    · rw [List.length_append, show (lit "did:aps:").length = 8 from rfl]
      omega
    · rw [List.mem_append, not_or]
      exact ⟨by decide, Multibase.notMem_multibase (by decide) (by decide) _⟩

theorem parse_keyId {did : Str} (h : PlainDid did) (n : Nat) :
    parseDidUri (keyIdForPublicKey did n) = some ⟨did, lit "key-" ++ decimal n⟩ := by
  have hsplit : keyIdForPublicKey did n = did ++ 0x23 :: (lit "key-" ++ decimal n) := by
    rw [keyIdForPublicKey, List.append_assoc]
    rfl
  have hprefix : (lit "did:").isPrefixOf (did ++ 0x23 :: (lit "key-" ++ decimal n)) = true :=
    List.isPrefixOf_iff_prefix.mpr ((List.isPrefixOf_iff_prefix.mp h.scheme).trans (List.prefix_append _ _))
  have hindex : (did ++ 0x23 :: (lit "key-" ++ decimal n)).findIdx? (· = 0x23) = some did.length := by
    rw [List.findIdx?_append, List.findIdx?_eq_none_iff.mpr]
    · simp [List.findIdx?_cons]
    · intro c hc
      exact decide_eq_false (fun heq => h.noHash (heq ▸ hc))
  have hrest : (did ++ 0x23 :: (lit "key-" ++ decimal n)).drop (did.length + 1) = lit "key-" ++ decimal n := by
    rw [← List.drop_drop, List.drop_left]
    rfl
  have hplain : (lit "key-" ++ decimal n).any (· = 0x23) = false := by
    rw [List.any_eq_false]
    intro c hc heq
    rw [decide_eq_true_eq] at heq
    subst heq
    obtain hname | hdigit := List.mem_append.mp hc
    · revert hname
      decide
    · exact absurd (decimal_digits hdigit) (by decide)
  have hlong := h.long
  have hlength : ¬ ((lit "key-" ++ decimal n).length = 0) := by
    rw [List.length_append, show (lit "key-").length = 4 from rfl]
    omega
  rw [hsplit, parseDidUri, hprefix, hindex]
  simp only [Bool.not_true, Bool.false_eq_true, if_false]
  rw [if_neg (by omega), hrest, List.take_left, if_neg (by omega), hplain, if_neg Bool.false_ne_true]

theorem resolve_member (h : Sound doc) (hdid : PlainDid doc.id) {vm : RotatableVerificationMethod}
    (hvm : vm ∈ doc.verificationMethod) (clock : JsNumber) (nowMs issuedAtMs : Option JsNumber) :
    resolveVerificationMethod clock doc vm.id nowMs issuedAtMs =
      some ⟨vm, isRetired vm.retiredAt (nowMs.getD clock) (issuedAtMs.getD (nowMs.getD clock))⟩ := by
  obtain ⟨i, -, hid⟩ := h.id_eq hvm
  have hfind : findMethod vm.id doc.verificationMethod = some vm := by
    have hsome : (doc.verificationMethod.find? (fun v => v.id = vm.id)).isSome = true :=
      List.find?_isSome.mpr ⟨vm, hvm, decide_eq_true rfl⟩
    obtain ⟨found, hfound⟩ := Option.isSome_iff_exists.mp hsome
    have hsame := List.find?_some hfound
    rw [decide_eq_true_eq] at hsame
    rw [findMethod, hfound, List.inj_on_of_nodup_map h.nodup (List.mem_of_find?_eq_some hfound) hvm hsame]
  rw [resolveVerificationMethod, hfind, hid, parse_keyId hdid]
  simp only [ne_eq, not_true_eq_false, if_false]

def reading : Call → Option Int
  | .announce now _ _ _ _ => some now
  | .activate now => now

def After (t : Double) (call : Call) : Prop := ∀ ms, reading call = some ms → (JsNumber.finite t).lt (.ofInt ms) = true

/-- A rotation is completed no later than the last instant of a four-digit year. -/
def Readable (doc : RotatableDIDDocument) : Call → Prop
  | .activate (some ms) => doc.pendingRotation.isSome = true → ms ≤ MAX_INSTANT
  | _ => True

theorem not_le_of_lt {t : Double} {n : JsNumber} (h : (JsNumber.finite t).lt n = true) : n.le (.finite t) = false := by
  cases n with
  | nan => rfl
  | finite d =>
    have hlt : t.scaled < d.scaled := of_decide_eq_true h
    rw [JsNumber.le, JsNumber.lt, JsNumber.eq, decide_eq_false (by omega), decide_eq_false (by omega)]
    rfl
  | infinite neg =>
    cases neg with
    | false => rfl
    | true => cases h

theorem not_retired_stamp {call : Call} {t : Double} (hafter : After t call) (hreadable : Readable doc call)
    {now : JsNumber} (hnow : isFinite now = true) {r : Str} (h : Stamps doc call r) :
    isRetired (some r) now (.finite t) = false := by
  have hread : ∀ {ms : Int} {text : Str}, formatRfc3339 ms = .ok text → reading call = some ms →
      isRetired (some (toISOString ms)) now (.finite t) = false := by
    intro ms text hformat hreading
    have htext : toISOString ms = text := by rw [toISOString, hformat]
    rw [isRetired, htext]
    split
    · rfl
    · simp only [parse_of_format hformat, hnow, not_le_of_lt (hafter ms hreading)]
      rfl
  cases h with
  | announce hformat => exact hread hformat rfl
  | activate hpending hmin =>
    obtain ⟨text, hformat, -, -⟩ := format_parses ⟨hmin, hreadable hpending⟩
    exact hread hformat rfl

theorem retired_of_now {retiredAt : Option Str} {now₀ now issued : JsNumber} (hnow : isFinite now = true)
    (h : isRetired retiredAt now₀ issued = false) : isRetired retiredAt now issued = false := by
  cases retiredAt with
  | none => rfl
  | some text =>
    rw [isRetired] at h ⊢
    by_cases hempty : text = []
    · rw [if_pos hempty]
    · rw [if_neg hempty] at h ⊢
      cases hms : parseRfc3339 (.str text) with
      | error e =>
        rw [hms] at h
        cases h
      | ok ms =>
        rw [hms] at h
        simp only [Bool.or_eq_true, Bool.not_eq_true'] at h ⊢
        have hfinite : ¬ (isFinite now₀ = false ∨ isFinite issued = false) := by
          intro hnot
          rw [if_pos hnot] at h
          cases h
        rw [if_neg hfinite] at h
        rw [if_neg]
        · exact h
        · rintro (hnot | hnot)
          · rw [hnow] at hnot
            cases hnot
          · exact hfinite (.inr hnot)

theorem run_append (before later : List Call) : run R doc (before ++ later) = run R (run R doc before) later :=
  List.foldl_append

/-- Whatever the calls, methods stay in their places with their ids and keys, and a mark that is set
stays. A method that was not retired at an instant still verifies what was signed then after any
calls read later, as long as rotations are completed at readable times. -/
theorem signatures_survive_rotation {passport : Passport} (hcreate : createDIDDocument passport = .ok doc)
    (before later : List Call) :
    Extends (fun _ => True) (run R doc before).verificationMethod (run R doc (before ++ later)).verificationMethod ∧
    ∀ (t : Double) (now₀ clock : JsNumber) (nowMs : Option JsNumber), isFinite (nowMs.getD clock) = true →
      AllCalls R (fun doc call => After t call ∧ Readable doc call) (run R doc before) later →
      ∀ vm ∈ (run R doc before).verificationMethod, isRetired vm.retiredAt now₀ (.finite t) = false →
        ∃ vm', resolveVerificationMethod clock (run R doc (before ++ later)) vm.id nowMs (some (.finite t)) =
            some ⟨vm', false⟩ ∧ vm'.publicKeyMultibase = vm.publicKeyMultibase := by
  obtain ⟨hsound, hid, -⟩ := run_sound (R := R) (sound_create hcreate) before
  obtain ⟨hlater, hid', hextends⟩ := run_sound (R := R) hsound later
  rw [run_append]
  refine ⟨hextends, ?_⟩
  intro t now₀ clock nowMs hnow hcalls vm hvm hlive
  obtain ⟨-, -, hmarks⟩ := run_extends (P := fun r => isRetired (some r) (nowMs.getD clock) (.finite t) = false)
    (fun doc call r hok hstamp => not_retired_stamp hok.1 hok.2 hnow hstamp) later hsound hcalls
  obtain ⟨i, hi, hget⟩ := List.getElem_of_mem hvm
  obtain ⟨vm', hvm', hages⟩ := hmarks i vm ((List.getElem?_eq_getElem hi).trans (congrArg some hget))
  have hdid : PlainDid (run R (run R doc before) later).id := by
    rw [hid', hid]
    exact plainDid_create hcreate
  have hresolve := resolve_member hlater hdid (List.mem_of_getElem? hvm') clock nowMs (some (.finite t))
  rw [hages.id, Option.getD_some] at hresolve
  have hstill : isRetired vm'.retiredAt (nowMs.getD clock) (.finite t) = false := by
    cases hmark : vm'.retiredAt with
    | none => rfl
    | some r =>
      obtain hold | hnew := hages.marked r hmark
      · rw [hold] at hlive
        exact retired_of_now hnow hlive
      · exact hnew
  rw [hstill] at hresolve
  exact ⟨vm', hresolve, hages.key⟩

end Sound

open RotationHistory (sampleRuntime samplePassport sampleCalls)

theorem signing_canonical : 7238556467200000 < 2 ^ 53 ∧ (-1074 : Int) ≤ -12 ∧ (-12 : Int) ≤ 971 ∧
    (2 ^ 52 ≤ 7238556467200000 ∨ (-12 : Int) = -1074) := by
  decide

/-- 2026-01-01T00:01:40Z in milliseconds, after the rotation is announced and before it is completed. -/
def signingTime : Double := ⟨false, 7238556467200000, -12, signing_canonical⟩

/-- The key that signed is replaced a day later; its signature still verifies. -/
theorem replaced_key_still_verifies : ∃ doc, createDIDDocument samplePassport = .ok doc ∧
    ∃ vm ∈ (run sampleRuntime doc (sampleCalls.take 2)).verificationMethod,
      vm.id = keyIdForPublicKey doc.id 2 ∧
      ∃ vm', resolveVerificationMethod (.ofInt 0) (run sampleRuntime doc (sampleCalls.take 2 ++ sampleCalls.drop 2)) vm.id
        none (some (.finite signingTime)) = some ⟨vm', false⟩ ∧ vm'.publicKeyMultibase = vm.publicKeyMultibase := by
  obtain ⟨doc, hcreate⟩ := exists_of_isOk (show (createDIDDocument samplePassport).isOk = true by decide)
  have hmember : ∃ vm, (run sampleRuntime doc (sampleCalls.take 2)).verificationMethod[1]? = some vm ∧
      vm.id = keyIdForPublicKey doc.id 2 ∧ vm.retiredAt = none := by
    have hsecond : (createDIDDocument samplePassport).toOption.map (fun doc : RotatableDIDDocument =>
        ((run sampleRuntime doc (sampleCalls.take 2)).verificationMethod[1]?).map (fun vm : RotatableVerificationMethod =>
          (decide (vm.id = keyIdForPublicKey doc.id 2), vm.retiredAt))) = some (some (true, none)) := by
      decide +kernel
    rw [hcreate, Except.toOption, Option.map_some, Option.some.injEq] at hsecond
    obtain ⟨vm, hvm, hfields⟩ := Option.map_eq_some_iff.mp hsecond
    obtain ⟨hid, hmark⟩ := Prod.mk.inj hfields
    exact ⟨vm, hvm, of_decide_eq_true hid, hmark⟩
  obtain ⟨vm, hget, hid, hunmarked⟩ := hmember
  refine ⟨doc, hcreate, vm, List.mem_of_getElem? hget, hid, ?_⟩
  have hlt : (JsNumber.finite signingTime).lt (.ofInt 1767312000000) = true := by decide +kernel
  refine (signatures_survive_rotation hcreate (sampleCalls.take 2) (sampleCalls.drop 2)).2 signingTime (.ofInt 0)
    (.ofInt 0) none (by decide +kernel) ⟨⟨?_, fun _ => by decide⟩, trivial⟩ vm (List.mem_of_getElem? hget) (hunmarked ▸ rfl)
  intro ms hms
  rw [← Option.some.inj hms]
  exact hlt

/-- Completed in the year 10000, the rotation leaves a mark that cannot be read: the key that signed
before it was replaced counts as retired. -/
theorem late_completion_unreadable :
    After signingTime (.activate (some 253402300800000)) ∧
    (createDIDDocument samplePassport).toOption.map (fun doc =>
      let retired calls := (resolveVerificationMethod (.ofInt 253402300800001) (run sampleRuntime doc calls)
        (keyIdForPublicKey doc.id 2) none (some (.finite signingTime))).map
          ResolveVerificationMethodResult.retired
      (retired (sampleCalls.take 2), retired (sampleCalls.take 2 ++ [Call.activate (some 253402300800000)]))) =
      some (some false, some true) := by
  have hlt : (JsNumber.finite signingTime).lt (.ofInt 253402300800000) = true := by decide +kernel
  refine ⟨?_, by decide +kernel⟩
  intro ms hms
  rw [← Option.some.inj hms]
  exact hlt

end AgentPassport.DidUri
