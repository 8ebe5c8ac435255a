import AgentPassport.DelegationChain
import AgentPassport.KeyRotation

/-! A rotated document records a history of keys: the settled ones in order, and the one that
has been announced. Every call keeps the document in step with such a history, and the laws of
a document are read off it. -/
namespace AgentPassport.RotationHistory
open JsText Js LegacyCanonical Multibase Outcome KeyRotation
open DelegationScope (splitOn splitOn_append splitOn_notMem)
open DelegationSchema (isLowerHexOf)

theorem keyId_injective {did : Str} {m n : Nat} (h : keyIdForPublicKey did m = keyIdForPublicKey did n) : m = n := by
  rw [keyIdForPublicKey, keyIdForPublicKey] at h
  exact decimal_injective (List.append_cancel_left h)

def decoded (vm : RotatableVerificationMethod) : Option Str := (multibaseToHex vm.publicKeyMultibase).toOption

/-- The methods hold the keys in order, under consecutive ids. -/
def Holds (did : Str) (methods : List RotatableVerificationMethod) (keys : List Str) : Prop :=
  methods.map (fun vm => (vm.id, decoded vm)) =
    keys.zipIdx.map (fun p => (keyIdForPublicKey did (p.2 + 1), some p.1))

variable {did : Str} {methods : List RotatableVerificationMethod} {keys : List Str}

theorem Holds.length (h : Holds did methods keys) : methods.length = keys.length := by
  have hlen := congrArg List.length h
  rwa [List.length_map, List.length_map, List.length_zipIdx] at hlen

variable {vm : RotatableVerificationMethod}

theorem Holds.mem (h : Holds did methods keys) (hvm : vm ∈ methods) :
    ∃ i k, keys[i]? = some k ∧ vm.id = keyIdForPublicKey did (i + 1) ∧ decoded vm = some k := by
  have hmem : (vm.id, decoded vm) ∈ keys.zipIdx.map (fun p => (keyIdForPublicKey did (p.2 + 1), some p.1)) :=
    h ▸ List.mem_map_of_mem hvm
  obtain ⟨⟨k, i⟩, hp, heq⟩ := List.mem_map.mp hmem
  obtain ⟨hid, hkey⟩ := Prod.mk.inj heq
  exact ⟨i, k, List.mem_zipIdx_iff_getElem?.mp hp, hid.symm, hkey.symm⟩

theorem Holds.exists (h : Holds did methods keys) {i : Nat} {k : Str} (hk : keys[i]? = some k) :
    ∃ vm ∈ methods, vm.id = keyIdForPublicKey did (i + 1) ∧ decoded vm = some k := by
  have hmem : (keyIdForPublicKey did (i + 1), some k) ∈ methods.map (fun vm => (vm.id, decoded vm)) :=
    h ▸ List.mem_map.mpr ⟨(k, i), List.mem_zipIdx_iff_getElem?.mpr hk, rfl⟩
  obtain ⟨vm, hvm, heq⟩ := List.mem_map.mp hmem
  obtain ⟨hid, hkey⟩ := Prod.mk.inj heq
  exact ⟨vm, hvm, hid, hkey⟩

theorem Holds.find (h : Holds did methods keys) {i : Nat} {k : Str} (hk : keys[i]? = some k)
    {p : RotatableVerificationMethod → Bool} (hp : ∀ vm, p vm = true ↔ vm.id = keyIdForPublicKey did (i + 1)) :
    ∃ vm, methods.find? p = some vm ∧ vm.id = keyIdForPublicKey did (i + 1) ∧ decoded vm = some k := by
  obtain ⟨vm, hvm, hid, -⟩ := h.exists hk
  have hsome : (methods.find? p).isSome = true := List.find?_isSome.mpr ⟨vm, hvm, (hp vm).mpr hid⟩
  obtain ⟨found, hfound⟩ := Option.isSome_iff_exists.mp hsome
  have hfid := (hp found).mp (List.find?_some hfound)
  obtain ⟨j, k', hk', hj, hdecoded⟩ := h.mem (List.mem_of_find?_eq_some hfound)
  have hij : i + 1 = j + 1 := keyId_injective (hfid.symm.trans hj)
  rw [← Nat.succ.inj hij, hk] at hk'
  exact ⟨found, hfound, hfid, hdecoded.trans hk'.symm⟩

theorem Holds.append (h : Holds did methods keys) {k : Str} (hid : vm.id = keyIdForPublicKey did (keys.length + 1))
    (hkey : decoded vm = some k) : Holds did (methods ++ [vm]) (keys ++ [k]) := by
  rw [Holds] at h ⊢
  rw [List.map_append, h, List.zipIdx_append, List.map_append, List.map_singleton, hid, hkey]
  simp only [List.zipIdx_singleton, List.map_singleton, Nat.zero_add]

theorem Holds.ids_nodup (h : Holds did methods keys) : (methods.map RotatableVerificationMethod.id).Nodup := by
  have hids : methods.map RotatableVerificationMethod.id =
      (List.range keys.length).map (fun i => keyIdForPublicKey did (i + 1)) := by
    have hfst := congrArg (List.map Prod.fst) h
    rw [List.map_map, List.map_map] at hfst
    rw [List.range_eq_range', ← List.zipIdx_map_snd 0 keys, List.map_map]
    exact hfst
  rw [hids]
  exact List.Nodup.map (fun i j hij => Nat.succ.inj (keyId_injective hij)) List.nodup_range

theorem Holds.retire (h : Holds did methods keys) (id retiredAt : Str) : Holds did (retire id retiredAt methods) keys := by
  have hmap : (KeyRotation.retire id retiredAt methods).map (fun vm => (vm.id, decoded vm)) =
      methods.map (fun vm => (vm.id, decoded vm)) := by
    clear h
    induction methods with
    | nil => rfl
    | cons vm rest ih =>
      rw [KeyRotation.retire]
      split
      · rfl
      · rw [List.map_cons, List.map_cons, ih]
  rw [Holds, hmap]
  exact h

theorem mem_retire (hnodup : (methods.map RotatableVerificationMethod.id).Nodup) {id retiredAt : Str}
    (hvm : vm ∈ retire id retiredAt methods) :
    vm ∈ methods ∧ vm.id ≠ id ∨ vm.id = id ∧ vm.retiredAt = some retiredAt := by
  induction methods with
  | nil => cases hvm
  | cons first rest ih =>
    obtain ⟨hfirst, hrest⟩ := List.nodup_cons.mp hnodup
    rw [retire] at hvm
    split at hvm
    · rename_i hid
      obtain rfl | hmem := List.mem_cons.mp hvm
      · exact .inr ⟨hid, rfl⟩
      · refine .inl ⟨List.mem_cons_of_mem _ hmem, ?_⟩
        intro heq
        exact hfirst ((hid.trans heq.symm) ▸ List.mem_map_of_mem hmem)
    · rename_i hid
      obtain rfl | hmem := List.mem_cons.mp hvm
      · exact .inl ⟨List.mem_cons_self, hid⟩
      · obtain ⟨hold, hne⟩ | hretired := ih hrest hmem
        · exact .inl ⟨List.mem_cons_of_mem _ hold, hne⟩
        · exact .inr hretired

def links : List Str → List (Str × Str)
  | a :: b :: rest => (a, b) :: links (b :: rest)
  | _ => []

theorem links_append (past : List Str) (a b : Str) : links (past ++ [a] ++ [b]) = links (past ++ [a]) ++ [(a, b)] := by
  induction past with
  | nil => rfl
  | cons k past ih =>
    cases past with
    | nil => rfl
    | cons k' past =>
      simp only [List.cons_append, links] at ih ⊢
      rw [ih]

/-- A signature by the key that is given up over the step it signs away. -/
def Signed (R : Runtime) (previousKey newKey : Str) (mode : RotationMode) (activationTime signature : Str) : Prop :=
  ∃ payload, canonicalRotationPayload R previousKey newKey mode activationTime = .ok payload ∧
    R.verify payload signature previousKey = true

/-- The document records the history `past ++ [current]`, and `next` is announced. -/
structure Records (R : Runtime) (did genesis : Str) (doc : RotatableDIDDocument) (past : List Str) (current : Str)
    (next : Option Str) : Prop where
  id : doc.id = did
  first : (past ++ [current]).head? = some genesis
  methods : Holds did doc.verificationMethod (past ++ [current] ++ next.toList)
  authentication : doc.authentication =
    keyIdForPublicKey did (past.length + 1) :: next.toList.map (fun _ => keyIdForPublicKey did (past.length + 2))
  assertionMethod : doc.assertionMethod = doc.authentication
  capabilityDelegation : doc.capabilityDelegation = doc.authentication
  live : ∀ vm ∈ doc.verificationMethod, vm.retiredAt = none ↔ vm.id ∈ doc.authentication
  log : doc.rotationLog.map (fun e => (e.previousKey, e.newKey)) = links (past ++ [current])
  signed : ∀ e ∈ doc.rotationLog, Signed R e.previousKey e.newKey e.mode e.activationTime e.rotationSignature
  pending : ∀ p, doc.pendingRotation = some p → ∃ k, next = some k ∧
    p.newKeyId = keyIdForPublicKey did (past.length + 2) ∧
    Signed R current k p.mode p.activationTime p.rotationSignature
  settled : doc.pendingRotation = none → next = none

/-- Signing and verifying belong together, and the public key is the one of the private key. -/
def SignsFor (R : Runtime) : Prop :=
  ∀ message privateKey signature publicKey, R.sign message privateKey = some signature →
    R.publicKeyFromPrivate privateKey = some publicKey → R.verify message signature publicKey = true

variable {R : Runtime} {genesis : Str} {doc doc' : RotatableDIDDocument} {past : List Str} {current : Str}
  {next : Option Str}

theorem multibaseToHexSafe_of_decoded {k : Str} (h : decoded vm = some k) :
    multibaseToHexSafe vm.publicKeyMultibase = k := by
  rw [decoded] at h
  rw [multibaseToHexSafe]
  cases hk : multibaseToHex vm.publicKeyMultibase with
  | ok hex =>
    rw [hk] at h
    exact Option.some.inj h
  | error e =>
    rw [hk] at h
    cases h

theorem first_keyId (did : Str) : did ++ lit "#key-1" = keyIdForPublicKey did 1 := by
  have hdecimal : lit "#key-1" = lit "#key-" ++ decimal 1 := by decide
  rw [keyIdForPublicKey, List.append_assoc, hdecimal]

theorem records_create {passport : Passport} (h : createDIDDocument passport = .ok doc) :
    Records R doc.id (bytesToHex (hexToBytes passport.publicKey)) doc [] (bytesToHex (hexToBytes passport.publicKey))
      none := by
  obtain ⟨did, hdid, h⟩ := bind_eq_ok.mp h
  cases h
  have hdecoded : (multibaseToHex (hexToMultibase passport.publicKey)).toOption =
      some (bytesToHex (hexToBytes passport.publicKey)) := by
    rw [multibaseToHex_hexToMultibase]
    rfl
  refine ⟨rfl, rfl, ?_, ?_, rfl, rfl, ?_, rfl, ?_, ?_, fun _ => rfl⟩
  · simp only [Holds, decoded, hdecoded, first_keyId, List.map_cons, List.map_nil]
    rfl
  · rw [first_keyId]
    rfl
  · intro vm hvm
    obtain rfl := List.mem_singleton.mp hvm
    simp
  · exact fun e he => by cases he
  · exact fun p hp => by cases hp

theorem signRotation_signed (hsign : SignsFor R) {previousKey newKey activationTime privateKey signature : Str}
    {mode : RotationMode} (hkey : R.publicKeyFromPrivate privateKey = some previousKey)
    (h : signRotation R previousKey newKey mode activationTime privateKey = .ok signature) :
    Signed R previousKey newKey mode activationTime signature := by
  rw [signRotation] at h
  split at h
  · cases h
  rename_i payload hpayload
  split at h
  · cases h
  · rename_i signature' hsignature
    cases h
    refine ⟨payload, ?_, hsign payload privateKey signature previousKey hsignature hkey⟩
    obtain ⟨text, htext, hpayload⟩ := bind_eq_ok.mp hpayload
    exact bind_eq_ok.mpr ⟨text, conservative _ _ _ htext, hpayload⟩

theorem Records.ownership (h : Records R did genesis doc past current none) {privateKey publicKey : Str}
    (hown : checkOwnership R doc privateKey = .ok (publicKey, vm)) :
    publicKey = current ∧ R.publicKeyFromPrivate privateKey = some publicKey ∧
      vm.id = keyIdForPublicKey did (past.length + 1) := by
  obtain ⟨found, hfound, hid, hdecoded⟩ := h.methods.find
    (i := past.length) (k := current) (p := fun vm => vm.id = keyIdForPublicKey did (past.length + 1))
    (by simp) (by simp)
  have hactive : doc.authentication.head?.bind (fun id => findMethod id doc.verificationMethod) = some found := by
    rw [h.authentication]
    exact hfound
  rw [checkOwnership, hactive] at hown
  simp only at hown
  split at hown
  · cases hown
  rename_i oldPublicKey hpublic
  split at hown
  · cases hown
  · rename_i hmatch
    cases hown
    rw [multibaseToHexSafe_of_decoded hdecoded] at hmatch
    exact ⟨not_not.mp hmatch, hpublic, hid⟩

theorem Records.live_iff (h : Records R did genesis doc past current none) (hvm : vm ∈ doc.verificationMethod) :
    vm.retiredAt = none ↔ vm.id = keyIdForPublicKey did (past.length + 1) := by
  rw [h.live vm hvm, h.authentication]
  exact List.mem_singleton

theorem Records.newMethod_id (h : Records R did genesis doc past current none) (newKey : Str) :
    (newMethod doc newKey).id = keyIdForPublicKey did (past.length + 2) := by
  have hlen : (past ++ [current] ++ (none : Option Str).toList).length = past.length + 1 := by simp
  rw [newMethod, nextKeyIndex, h.methods.length, h.id, hlen]

theorem Records.old_ne_new (h : Records R did genesis doc past current none) (hvm : vm ∈ doc.verificationMethod) :
    vm.id ≠ keyIdForPublicKey did (past.length + 2) := by
  obtain ⟨i, k, hk, hid, -⟩ := h.methods.mem hvm
  intro heq
  have hlt : i < (past ++ [current] ++ (none : Option Str).toList).length := (List.getElem?_eq_some_iff.mp hk).1
  have hi := keyId_injective (hid.symm.trans heq)
  simp only [Option.toList_none, List.append_nil, List.length_append, List.length_singleton] at hlt
  omega

theorem Records.holds_new (h : Records R did genesis doc past current none) {newKey : Str}
    (hnew : isLowerHexOf 64 newKey = true) :
    Holds did (doc.verificationMethod ++ [newMethod doc newKey]) (past ++ [current] ++ [newKey]) := by
  have hround : multibaseToHex (hexToMultibase newKey) = .ok newKey := by
    simp only [isLowerHexOf, Bool.and_eq_true, decide_eq_true_eq, List.all_eq_true] at hnew
    exact multibase_roundTrip (by omega) hnew.2
  have hold := h.methods
  rw [Option.toList_none, List.append_nil] at hold
  refine hold.append ?_ ?_
  · rw [h.newMethod_id, List.length_append, List.length_singleton]
  · rw [decoded, newMethod, hround]
    rfl

section Announced
variable {announcedAt newKey activationTime signature : Str}

theorem announced_planned (h : Records R did genesis doc past current none) (hnew : isLowerHexOf 64 newKey = true)
    (hsigned : Signed R current newKey .planned activationTime signature) (activeKeyId : Str) :
    Records R did genesis
      (announced doc announcedAt current newKey .planned activationTime signature activeKeyId)
      past current (some newKey) := by
  refine ⟨h.id, h.first, h.holds_new hnew, ?_, ?_, ?_, ?_, h.log, h.signed, ?_, ?_⟩
  · rw [announced, h.newMethod_id, h.authentication]
    rfl
  · rw [announced, h.assertionMethod]
  · rw [announced, h.capabilityDelegation]
  · intro vm hvm
    rw [announced, h.newMethod_id, h.authentication]
    simp only [Option.toList_none, List.map_nil, List.cons_append, List.nil_append, List.mem_cons, List.not_mem_nil,
      or_false]
    obtain hvm | hvm := List.mem_append.mp hvm
    · rw [h.live_iff hvm]
      exact ⟨.inl, fun hid => hid.resolve_right (h.old_ne_new hvm)⟩
    · obtain rfl := List.mem_singleton.mp hvm
      exact iff_of_true rfl (.inr (h.newMethod_id newKey))
  · intro p hp
    cases hp
    exact ⟨newKey, rfl, h.newMethod_id newKey, hsigned⟩
  · exact fun hp => by cases hp

theorem announced_emergency (h : Records R did genesis doc past current none) (hpending : doc.pendingRotation = none)
    (hnew : isLowerHexOf 64 newKey = true) (hsigned : Signed R current newKey .emergency activationTime signature)
    {activeKeyId : Str} (hactive : activeKeyId = keyIdForPublicKey did (past.length + 1)) :
    Records R did genesis
      (announced doc announcedAt current newKey .emergency activationTime signature activeKeyId)
      (past ++ [current]) newKey none := by
  have hholds := h.holds_new hnew
  refine ⟨h.id, ?_, ?_, ?_, rfl, rfl, ?_, ?_, ?_, ?_, fun _ => rfl⟩
  · rw [List.head?_append, h.first]
    rfl
  · rw [Option.toList_none, List.append_nil]
    exact hholds.retire _ _
  · rw [announced, h.newMethod_id, List.length_append, List.length_singleton]
    rfl
  · intro vm hvm
    rw [announced, h.newMethod_id, List.mem_singleton]
    obtain ⟨hold, hne⟩ | ⟨hid, hretired⟩ := mem_retire hholds.ids_nodup hvm
    · obtain hold | hold := List.mem_append.mp hold
      · rw [h.live_iff hold, ← hactive]
        exact iff_of_false hne (h.old_ne_new hold)
      · obtain rfl := List.mem_singleton.mp hold
        exact iff_of_true rfl (h.newMethod_id newKey)
    · rw [hretired, hid, hactive]
      refine iff_of_false (by simp) ?_
      intro heq
      exact absurd (keyId_injective heq) (by omega)
  · show List.map _ (doc.rotationLog ++ _) = _
    rw [List.map_append, h.log, links_append]
    rfl
  · intro e he
    obtain he | he := List.mem_append.mp he
    · exact h.signed e he
    · obtain rfl := List.mem_singleton.mp he
      exact hsigned
  · intro p hp
    rw [announced, hpending] at hp
    cases hp

end Announced

theorem announce_records (hsign : SignsFor R) (h : Records R did genesis doc past current none)
    (hpending : doc.pendingRotation = none) {now : Int} {privateKey newKey : Str} {mode : RotationMode}
    {delay : Option JsNumber} (hnew : isLowerHexOf 64 newKey = true)
    (hcall : announceKeyRotation R doc now privateKey newKey mode delay = .ok doc') :
    Records R did genesis doc' past current (some newKey) ∨
      Records R did genesis doc' (past ++ [current]) newKey none := by
  rw [announceKeyRotation, hpending] at hcall
  simp only [Option.isSome_none, Bool.false_eq_true, if_false] at hcall
  obtain ⟨activationTime, -, hcall⟩ := bind_eq_ok.mp hcall
  obtain ⟨⟨oldPublicKey, activeVm⟩, hown, hcall⟩ := bind_eq_ok.mp hcall
  obtain ⟨signature, hsignature, hcall⟩ := bind_eq_ok.mp hcall
  cases hcall
  obtain ⟨rfl, hpublic, hid⟩ := h.ownership hown
  have hsigned := signRotation_signed hsign hpublic hsignature
  cases mode with
  | planned => exact .inl (announced_planned h hnew hsigned activeVm.id)
  | emergency => exact .inr (announced_emergency h hpending hnew hsigned hid)

theorem activated_records {newKey : Str} (h : Records R did genesis doc past current (some newKey))
    {p : PendingRotation} (hp : doc.pendingRotation = some p) (completedAt : Str) :
    Records R did genesis (activated doc p completedAt) (past ++ [current]) newKey none := by
  obtain ⟨k, hk, hnewId, hsigned⟩ := h.pending p hp
  obtain rfl := Option.some.inj hk
  have holdIds : doc.authentication.filter (fun id => id ≠ p.newKeyId) = [keyIdForPublicKey did (past.length + 1)] := by
    have hne : keyIdForPublicKey did (past.length + 1) ≠ keyIdForPublicKey did (past.length + 2) := by
      intro heq
      exact absurd (keyId_injective heq) (by omega)
    rw [h.authentication, hnewId]
    simp [hne]
  have hmethods : (activated doc p completedAt).verificationMethod =
      retire (keyIdForPublicKey did (past.length + 1)) completedAt doc.verificationMethod := by
    rw [activated, holdIds]
    rfl
  have hholds := h.methods.retire (keyIdForPublicKey did (past.length + 1)) completedAt
  have hold : keyOf (doc.verificationMethod.find?
      (fun vm => decide (vm.id ∈ [keyIdForPublicKey did (past.length + 1)]))) = current := by
    obtain ⟨vm, hvm, -, hdecoded⟩ := h.methods.find (i := past.length) (k := current)
      (p := fun vm => decide (vm.id ∈ [keyIdForPublicKey did (past.length + 1)])) (by simp) (by simp)
    rw [hvm]
    exact multibaseToHexSafe_of_decoded hdecoded
  have hnew : keyOf (findMethod p.newKeyId
      (retire (keyIdForPublicKey did (past.length + 1)) completedAt doc.verificationMethod)) = newKey := by
    obtain ⟨vm, hvm, -, hdecoded⟩ := hholds.find (i := past.length + 1) (k := newKey)
      (p := fun vm => vm.id = p.newKeyId) (by simp) (by simp [hnewId])
    rw [findMethod, hvm]
    exact multibaseToHexSafe_of_decoded hdecoded
  have hlog : (activated doc p completedAt).rotationLog = doc.rotationLog ++ [⟨current, newKey, p.mode, doc.updated,
      p.activationTime, .activated, p.rotationSignature, completedAt⟩] := by
    rw [activated, holdIds]
    simp only [List.foldl_cons, List.foldl_nil, hold, hnew]
  refine ⟨h.id, ?_, ?_, ?_, rfl, rfl, ?_, ?_, ?_, ?_, fun _ => rfl⟩
  · rw [List.head?_append, h.first]
    rfl
  · rw [hmethods, Option.toList_none, List.append_nil]
    exact hholds
  · rw [activated, hnewId, List.length_append, List.length_singleton]
    rfl
  · intro vm hvm
    rw [hmethods] at hvm
    rw [activated, hnewId, List.mem_singleton]
    obtain ⟨hmem, hne⟩ | ⟨hid, hretired⟩ := mem_retire h.methods.ids_nodup hvm
    · rw [h.live vm hmem, h.authentication]
      simp [hne]
    · rw [hretired, hid]
      refine iff_of_false (by simp) ?_
      intro heq
      exact absurd (keyId_injective heq) (by omega)
  · rw [hlog, List.map_append, h.log, links_append]
    rfl
  · intro e he
    rw [hlog] at he
    obtain he | he := List.mem_append.mp he
    · exact h.signed e he
    · obtain rfl := List.mem_singleton.mp he
      exact hsigned
  · exact fun p hp => by cases hp

/-- The document records some history that begins with the genesis key. -/
def RecordsSome (R : Runtime) (did genesis : Str) (doc : RotatableDIDDocument) : Prop :=
  ∃ past current next, Records R did genesis doc past current next

theorem step_records (hsign : SignsFor R) (h : RecordsSome R did genesis doc) {call : Call}
    (hkey : ∀ now privateKey newKey mode delay, call = .announce now privateKey newKey mode delay →
      isLowerHexOf 64 newKey = true) : RecordsSome R did genesis (step R doc call) := by
  obtain ⟨past, current, next, hdoc⟩ := h
  cases call with
  | announce now privateKey newKey mode delay =>
    rw [step]
    cases hcall : announceKeyRotation R doc now privateKey newKey mode delay with
    | error e => exact ⟨past, current, next, hdoc⟩
    | ok doc' =>
      have hpending : doc.pendingRotation = none := by
        cases hp : doc.pendingRotation with
        | none => rfl
        | some p =>
          rw [announceKeyRotation, hp] at hcall
          cases hcall
      obtain rfl := hdoc.settled hpending
      obtain hnew | hnew := announce_records hsign hdoc hpending (hkey _ _ _ _ _ rfl) hcall
      · exact ⟨past, current, some newKey, hnew⟩
      · exact ⟨past ++ [current], newKey, none, hnew⟩
  | activate now =>
    rw [step]
    cases hcall : activateKeyRotation doc now with
    | error e => exact ⟨past, current, next, hdoc⟩
    | ok doc' =>
      rw [activateKeyRotation] at hcall
      split at hcall
      · cases hcall
      rename_i p hp
      split at hcall
      · cases hcall
      split at hcall
      · cases hcall
      split at hcall
      · cases hcall
      · cases hcall
        obtain ⟨k, rfl, -⟩ := hdoc.pending p hp
        exact ⟨past ++ [current], k, none, activated_records hdoc hp _⟩

theorem run_records (hsign : SignsFor R) (calls : List Call)
    (hkeys : ∀ now privateKey newKey mode delay, Call.announce now privateKey newKey mode delay ∈ calls →
      isLowerHexOf 64 newKey = true) :
    ∀ doc, RecordsSome R did genesis doc → RecordsSome R did genesis (run R doc calls) := by
  induction calls with
  | nil => exact fun doc h => h
  | cons call rest ih =>
    intro doc h
    refine ih (fun _ _ _ _ _ hmem => hkeys _ _ _ _ _ (List.mem_cons_of_mem _ hmem)) _ ?_
    refine step_records hsign h fun now privateKey newKey mode delay heq => hkeys now privateKey newKey mode delay ?_
    rw [heq]
    exact List.mem_cons_self

/-- What holds of every document a run reaches. -/
structure RotationLaws (R : Runtime) (doc : RotatableDIDDocument) : Prop where
  distinct : (doc.verificationMethod.map RotatableVerificationMethod.id).Nodup
  named : ∀ id, id ∈ doc.authentication ∨ id ∈ doc.assertionMethod ∨ id ∈ doc.capabilityDelegation →
    ∃ vm ∈ doc.verificationMethod, vm.id = id
  equal : doc.assertionMethod = doc.authentication ∧ doc.capabilityDelegation = doc.authentication
  count : doc.authentication.length = if doc.pendingRotation.isSome then 2 else 1
  live : ∀ vm ∈ doc.verificationMethod, vm.retiredAt = none ↔ vm.id ∈ doc.authentication
  linked : ∀ i (e e' : DIDRotationEntry), doc.rotationLog[i]? = some e → doc.rotationLog[i + 1]? = some e' →
    e.newKey = e'.previousKey
  first : ∀ e, doc.rotationLog.head? = some e → publicKeyFromDID doc.id = .ok e.previousKey
  last : doc.pendingRotation = none → ∀ e, doc.rotationLog.getLast? = some e →
    ∃ vm ∈ doc.verificationMethod, doc.authentication = [vm.id] ∧ multibaseToHex vm.publicKeyMultibase = .ok e.newKey
  verifies : verifyRotationChain R doc = true

theorem links_getElem? (keys : List Str) (i : Nat) :
    (links keys)[i]? = (keys[i]?).bind (fun a => (keys[i + 1]?).map (fun b => (a, b))) := by
  induction keys generalizing i with
  | nil => rfl
  | cons a keys ih =>
    cases keys with
    | nil => cases i <;> rfl
    | cons b rest =>
      cases i with
      | zero => rfl
      | succ i =>
        rw [links, List.getElem?_cons_succ, ih i]
        rfl

theorem Records.entry (h : Records R did genesis doc past current next) {i : Nat} {e : DIDRotationEntry}
    (he : doc.rotationLog[i]? = some e) :
    (past ++ [current])[i]? = some e.previousKey ∧ (past ++ [current])[i + 1]? = some e.newKey := by
  have hlink : (links (past ++ [current]))[i]? = some (e.previousKey, e.newKey) := by
    rw [← h.log, List.getElem?_map, he]
    rfl
  rw [links_getElem?] at hlink
  obtain ⟨a, ha, hb⟩ := Option.bind_eq_some_iff.mp hlink
  obtain ⟨b, hb, heq⟩ := Option.map_eq_some_iff.mp hb
  obtain ⟨rfl, rfl⟩ := Prod.mk.inj heq
  exact ⟨ha, hb⟩

theorem links_length (past : List Str) (current : Str) : (links (past ++ [current])).length = past.length := by
  induction past using List.reverseRecOn generalizing current with
  | nil => rfl
  | append_singleton past k ih =>
    rw [links_append, List.length_append, ih, List.length_append]
    rfl

theorem splitOn_did (s : Str) : splitOn 0x3A (lit "did:aps:" ++ s) = lit "did" :: lit "aps" :: splitOn 0x3A s := by
  have hlit : lit "did:aps:" = lit "did" ++ 0x3A :: (lit "aps" ++ [0x3A]) := by decide
  have hdid : (0x3A : UInt16) ∉ lit "did" := by decide
  have haps : (0x3A : UInt16) ∉ lit "aps" := by decide
  rw [hlit, List.append_assoc, List.cons_append, List.append_assoc, splitOn_append, splitOn_notMem hdid, List.cons_append,
    List.nil_append, List.cons_append, List.nil_append, splitOn_append, splitOn_notMem haps]
  rfl

theorem publicKeyFromDID_create {publicKey did : Str} (h : createDID publicKey = .ok did) :
    publicKeyFromDID did = .ok (bytesToHex (hexToBytes publicKey)) := by
  rw [createDID] at h
  split at h
  · cases h
  cases h
  rw [publicKeyFromDID, splitOn_did, splitOn_notMem (colon_notMem_multibase publicKey)]
  simp only [ne_eq, not_true_eq_false, or_self, if_false]
  rw [if_pos (show (hexToMultibase publicKey).head? = some 0x7A from rfl), multibaseToHex_hexToMultibase]
  rfl

theorem Records.laws (h : Records R did genesis doc past current next) (hdid : publicKeyFromDID did = .ok genesis) :
    RotationLaws R doc where
  distinct := h.methods.ids_nodup
  named := by
    have hauth : ∀ id ∈ doc.authentication, ∃ vm ∈ doc.verificationMethod, vm.id = id := by
      intro id hid
      rw [h.authentication] at hid
      obtain rfl | hid := List.mem_cons.mp hid
      · obtain ⟨vm, hvm, hid, -⟩ := h.methods.exists (i := past.length) (k := current) (by simp)
        exact ⟨vm, hvm, hid⟩
      · obtain ⟨k, hk, rfl⟩ := List.mem_map.mp hid
        obtain rfl := Option.mem_toList.mp hk
        obtain ⟨vm, hvm, hid, -⟩ := h.methods.exists (i := past.length + 1) (k := k) (by simp)
        exact ⟨vm, hvm, hid⟩
    intro id hid
    rw [h.assertionMethod, h.capabilityDelegation, or_self, or_self] at hid
    exact hauth id hid
  equal := ⟨h.assertionMethod, h.capabilityDelegation⟩
  count := by
    rw [h.authentication]
    cases hp : doc.pendingRotation with
    | none =>
      obtain rfl := h.settled hp
      rfl
    | some p =>
      obtain ⟨k, rfl, -⟩ := h.pending p hp
      rfl
  live := h.live
  linked := by
    intro i e e' he he'
    exact Option.some.inj ((h.entry he).2.symm.trans (h.entry he').1)
  first := by
    intro e he
    rw [List.head?_eq_getElem?] at he
    have hfirst := h.first
    rw [List.head?_eq_getElem?, (h.entry he).1] at hfirst
    rw [h.id, hdid, Option.some.inj hfirst]
  last := by
    intro hpending e he
    obtain rfl := h.settled hpending
    obtain ⟨vm, hvm, hid, hdecoded⟩ := h.methods.exists (i := past.length) (k := current) (by simp)
    refine ⟨vm, hvm, by rw [h.authentication, hid]; rfl, ?_⟩
    have hlen : doc.rotationLog.length = past.length := by
      rw [← links_length past current, ← h.log, List.length_map]
    have hne : doc.rotationLog ≠ [] := fun hnil => by rw [hnil] at he; cases he
    have hpos : 0 < past.length := hlen ▸ List.length_pos_of_ne_nil hne
    rw [List.getLast?_eq_getElem?, hlen] at he
    have hnew := (h.entry he).2
    rw [Nat.sub_add_cancel hpos, List.getElem?_concat_length] at hnew
    rw [← Option.some.inj hnew]
    cases hk : multibaseToHex vm.publicKeyMultibase with
    | ok hex =>
      rw [decoded, hk] at hdecoded
      exact congrArg _ (Option.some.inj hdecoded)
    | error err =>
      rw [decoded, hk] at hdecoded
      cases hdecoded
  verifies := by
    rw [verifyRotationChain, List.all_eq_true]
    intro e he
    obtain ⟨payload, hpayload, hverify⟩ := h.signed e he
    rw [hpayload]
    exact hverify

/-- Every document reached from a fresh one by rotations to lowercase hexadecimal keys obeys the
laws, whatever mode and number of rotations, earlier keys included. -/
theorem rotation_laws (R : Runtime) (hsign : SignsFor R) (passport : Passport) (doc : RotatableDIDDocument)
    (hdoc : createDIDDocument passport = .ok doc) (calls : List Call)
    (hkeys : ∀ now privateKey newKey mode delay, Call.announce now privateKey newKey mode delay ∈ calls →
      isLowerHexOf 64 newKey = true) :
    RotationLaws R (run R doc calls) := by
  obtain ⟨past, current, next, hrecords⟩ := run_records hsign calls hkeys doc ⟨_, _, _, records_create hdoc⟩
  refine hrecords.laws ?_
  obtain ⟨did, hdid, hdoc⟩ := bind_eq_ok.mp hdoc
  cases hdoc
  exact publicKeyFromDID_create hdid

/-! ### A rotation there and back

The signatures are those of Ed25519 on the two payloads, told apart by their lengths. -/
section Sample
open DelegationChain (rootKey childKey childPrivateKey)
open CanonicalInjective (integerText)

def rootPrivateKey : Str := List.replicate 32 (lit "01") |>.flatten

def awaySignature : Str :=
  ["e73f255956e0a051", "b29f692a3e7ee289", "5a33f92eb17702b1", "a626d30eb54ddfe5",
    "7e5cbdae120cdbbf", "6bd4f4f10b5591df", "e315afa9f8777da4", "eab300512ddbba0c"].flatMap lit

def backSignature : Str :=
  ["08492eca8e547c7d", "52237e5a6e436c40", "62499ab0e098a226", "44638b7e8ec64b8e",
    "9ff1016ad7f825c9", "14f063447299f830", "029704f7a94a4994", "e24f47694e7eb60b"].flatMap lit

def sampleRuntime : Runtime where
  numText := integerText
  sign m key :=
    if key = rootPrivateKey ∧ m.length = 221 then some awaySignature
    else if key = childPrivateKey ∧ m.length = 219 then some backSignature
    else none
  verify m signature key :=
    (m.length = 221 && signature = awaySignature && key = rootKey) ||
      (m.length = 219 && signature = backSignature && key = childKey)
  publicKeyFromPrivate key :=
    if key = rootPrivateKey then some rootKey else if key = childPrivateKey then some childKey else none

theorem sampleRuntime_signsFor : SignsFor sampleRuntime := by
  intro m key signature publicKey hsign hpublic
  have hne : childPrivateKey ≠ rootPrivateKey := by decide
  simp only [sampleRuntime] at hsign hpublic ⊢
  split at hsign
  · rename_i hroot
    cases hsign
    rw [if_pos hroot.1] at hpublic
    cases hpublic
    simp [hroot.2]
  split at hsign
  · rename_i hchild
    cases hsign
    rw [hchild.1, if_neg hne, if_pos rfl] at hpublic
    cases hpublic
    simp [hchild.2]
  · cases hsign

def samplePassport : Passport := ⟨rootKey, lit "2026-01-01T00:00:00.000Z"⟩

def sampleCalls : List Call :=
  [.announce 1767225600000 rootPrivateKey childKey .emergency none,
    .announce 1767225600000 childPrivateKey rootKey .planned none, .activate (some 1767312000000)]

theorem rotation_laws_back : SignsFor sampleRuntime ∧ ∃ doc, createDIDDocument samplePassport = .ok doc ∧
    (run sampleRuntime doc sampleCalls).rotationLog.map DIDRotationEntry.newKey = [childKey, rootKey] ∧
    RotationLaws sampleRuntime (run sampleRuntime doc sampleCalls) := by
  refine ⟨sampleRuntime_signsFor, _, rfl, by decide +kernel, ?_⟩
  refine rotation_laws sampleRuntime sampleRuntime_signsFor samplePassport _ rfl sampleCalls ?_
  intro now privateKey newKey mode delay hmem
  simp only [sampleCalls, List.mem_cons, List.not_mem_nil, or_false, reduceCtorEq, Call.announce.injEq] at hmem
  obtain ⟨-, -, rfl, -⟩ | ⟨-, -, rfl, -⟩ := hmem
  · decide
  · decide

end Sample

end AgentPassport.RotationHistory
