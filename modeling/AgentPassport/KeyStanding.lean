import AgentPassport.RotationHistory

/-! What a rotated document says of its keys (`isKeyActive` and `verifyRotationChain` of
`core/key-rotation.ts`): which keys are in force at an instant, and what the log of a document
proves. -/
namespace AgentPassport.KeyStanding
open JsText Rfc3339 Multibase Outcome KeyRotation RotationHistory
open DelegationSchema (isLowerHexOf)
open LegacyDelegation (toISOString)

/-- `publicKeyMultibase === hexToMultibase(publicKey)`. -/
def Carries (publicKey : Str) (vm : RotatableVerificationMethod) : Prop :=
  vm.publicKeyMultibase = hexToMultibase publicKey

instance (publicKey : Str) (vm : RotatableVerificationMethod) : Decidable (Carries publicKey vm) :=
  inferInstanceAs (Decidable (_ = _))

/-- The superseded key of a pending rotation is out when the activation time cannot be read, and
from that time on; with an invalid date the comparison is false. -/
def supersededNow (pending : PendingRotation) (now : Option Int) : Bool :=
  match parseRfc3339 (.str pending.activationTime) with
  | .error _ => true
  | .ok activation =>
    match now with
    | none => false
    | some ms => activation ≤ ms

def isKeyActive (doc : RotatableDIDDocument) (publicKey : Str) (now : Option Int) : Bool :=
  match doc.verificationMethod.find? (fun v => Carries publicKey v) with
  | none => false
  | some vm =>
    if (vm.retiredAt.getD []) ≠ [] then false
    else if vm.id ∉ doc.authentication then false
    else
      match doc.pendingRotation with
      | some pending => if pending.newKeyId ≠ vm.id ∧ supersededNow pending now = true then false else true
      | none => true

/-- In the authentication list, and with a rotation pending the new one, or before its time. -/
def InForce (doc : RotatableDIDDocument) (now : Int) (vm : RotatableVerificationMethod) : Prop :=
  vm.id ∈ doc.authentication ∧ ∀ pending, doc.pendingRotation = some pending →
    pending.newKeyId = vm.id ∨
      ∃ activation, parseRfc3339 (.str pending.activationTime) = .ok activation ∧ now < activation

def KeyInForce (doc : RotatableDIDDocument) (publicKey : Str) (now : Int) : Prop :=
  ∃ vm ∈ doc.verificationMethod, Carries publicKey vm ∧ InForce doc now vm

/-- A method that is not in force comes before one in force with the same key. -/
def Shadowed (doc : RotatableDIDDocument) (publicKey : Str) (now : Int) : Prop :=
  ∃ (i j : Nat) (old vm : RotatableVerificationMethod), i < j ∧
    doc.verificationMethod[i]? = some old ∧ doc.verificationMethod[j]? = some vm ∧
    Carries publicKey old ∧ Carries publicKey vm ∧ InForce doc now vm ∧ ¬ InForce doc now old

/-- Consecutive ids; the last method is in the authentication list, and while a rotation is pending
the one before it too; no other method is, and the others are retired. -/
structure Shape (doc : RotatableDIDDocument) : Prop where
  ids : doc.verificationMethod.map RotatableVerificationMethod.id =
    (List.range doc.verificationMethod.length).map (fun i => keyIdForPublicKey doc.id (i + 1))
  settled : doc.pendingRotation = none → 1 ≤ doc.verificationMethod.length ∧
    doc.authentication = [keyIdForPublicKey doc.id doc.verificationMethod.length]
  pending : ∀ p, doc.pendingRotation = some p → 2 ≤ doc.verificationMethod.length ∧
    p.newKeyId = keyIdForPublicKey doc.id doc.verificationMethod.length ∧
    doc.authentication = [keyIdForPublicKey doc.id (doc.verificationMethod.length - 1), p.newKeyId]
  live : ∀ vm ∈ doc.verificationMethod, vm.retiredAt = none ↔ vm.id ∈ doc.authentication
  dated : ∀ vm ∈ doc.verificationMethod, vm.retiredAt ≠ some []

variable {R : Runtime} {doc doc' : RotatableDIDDocument}

theorem toISOString_ne_nil (ms : Int) : toISOString ms ≠ [] := by
  have hspell : ∀ year month day hour minute second millis, spell year month day hour minute second millis ≠ [] := by
    intro year month day hour minute second millis h
    simp [spell] at h
  intro hnil
  rw [toISOString] at hnil
  cases hformat : formatRfc3339 ms with
  | error e =>
    rw [hformat] at hnil
    exact hspell _ _ _ _ _ _ _ hnil
  | ok s =>
    rw [hformat] at hnil
    obtain rfl : s = [] := hnil
    rw [formatRfc3339] at hformat
    by_cases hrange : ms < MIN_INSTANT ∨ ms > MAX_INSTANT
    · rw [if_pos hrange] at hformat
      cases hformat
    · rw [if_neg hrange] at hformat
      exact hspell _ _ _ _ _ _ _ (Except.ok.inj hformat)

variable {vm : RotatableVerificationMethod}

theorem Shape.id_at (h : Shape doc) {i : Nat} (hvm : doc.verificationMethod[i]? = some vm) :
    i < doc.verificationMethod.length ∧ vm.id = keyIdForPublicKey doc.id (i + 1) := by
  have hlt : i < doc.verificationMethod.length := (List.getElem?_eq_some_iff.mp hvm).1
  have hid : (doc.verificationMethod.map RotatableVerificationMethod.id)[i]? = some vm.id := by
    rw [List.getElem?_map, hvm]
    rfl
  rw [h.ids, List.getElem?_map, List.getElem?_range hlt] at hid
  exact ⟨hlt, (Option.some.inj hid).symm⟩

theorem Shape.id_mem (h : Shape doc) (hvm : vm ∈ doc.verificationMethod) :
    ∃ i, i < doc.verificationMethod.length ∧ vm.id = keyIdForPublicKey doc.id (i + 1) := by
  obtain ⟨i, hi⟩ := List.getElem?_of_mem hvm
  exact ⟨i, h.id_at hi⟩

theorem shape_create {passport : Passport} (h : createDIDDocument passport = .ok doc) : Shape doc := by
  obtain ⟨did, -, h⟩ := bind_eq_ok.mp h
  cases h
  have hfirst := first_keyId did
  refine ⟨?_, fun _ => ⟨Nat.le_refl 1, ?_⟩, fun p hp => (nomatch hp), ?_, ?_⟩
  · simpa using hfirst
  · simpa using hfirst
  · exact List.forall_mem_singleton.mpr (iff_of_true rfl List.mem_cons_self)
  · exact List.forall_mem_singleton.mpr (fun hdate => nomatch hdate)

theorem retire_map {α : Type*} (g : RotatableVerificationMethod → α)
    (hg : ∀ vm date, g { vm with retiredAt := date } = g vm)
    (id retiredAt : Str) (methods : List RotatableVerificationMethod) :
    (retire id retiredAt methods).map g = methods.map g := by
  induction methods with
  | nil => rfl
  | cons vm rest ih =>
    rw [retire]
    by_cases hid : vm.id = id
    · rw [if_pos hid, List.map_cons, List.map_cons, hg]
    · rw [if_neg hid, List.map_cons, List.map_cons, ih]

theorem retire_ids (id retiredAt : Str) (methods : List RotatableVerificationMethod) :
    (retire id retiredAt methods).map RotatableVerificationMethod.id = methods.map RotatableVerificationMethod.id :=
  retire_map _ (fun _ _ => rfl) id retiredAt methods

theorem retire_length (id retiredAt : Str) (methods : List RotatableVerificationMethod) :
    (retire id retiredAt methods).length = methods.length := by
  have hlen := congrArg List.length (retire_ids id retiredAt methods)
  rwa [List.length_map, List.length_map] at hlen

section Announce
variable {announcedAt newKey activationTime signature : Str}

theorem Shape.newMethod_id (_ : Shape doc) (newKey : Str) :
    (newMethod doc newKey).id = keyIdForPublicKey doc.id (doc.verificationMethod.length + 1) := rfl

theorem Shape.ids_new (h : Shape doc) (newKey : Str) :
    (doc.verificationMethod ++ [newMethod doc newKey]).map RotatableVerificationMethod.id =
      (List.range (doc.verificationMethod ++ [newMethod doc newKey]).length).map
        (fun i => keyIdForPublicKey doc.id (i + 1)) := by
  rw [List.map_append, h.ids, List.length_append, List.length_singleton, List.range_succ, List.map_append]
  rfl

theorem Shape.old_ne_new (h : Shape doc) (hvm : vm ∈ doc.verificationMethod) (newKey : Str) :
    vm.id ≠ (newMethod doc newKey).id := by
  obtain ⟨i, hi, hid⟩ := h.id_mem hvm
  rw [hid, h.newMethod_id]
  intro heq
  have := keyId_injective heq
  omega

theorem shape_planned (h : Shape doc) (hpending : doc.pendingRotation = none) (oldKey activeKeyId : Str) :
    Shape (announced doc announcedAt oldKey newKey .planned activationTime signature activeKeyId) := by
  obtain ⟨hlen, hauth⟩ := h.settled hpending
  refine ⟨h.ids_new newKey, fun hnone => (nomatch hnone), ?_, ?_, ?_⟩
  · intro p hp
    obtain rfl := Option.some.inj hp
    have hcount : (doc.verificationMethod ++ [newMethod doc newKey]).length = doc.verificationMethod.length + 1 := by
      rw [List.length_append, List.length_singleton]
    refine ⟨?_, ?_, ?_⟩
    · show 2 ≤ (doc.verificationMethod ++ [newMethod doc newKey]).length
      omega
    · show _ = keyIdForPublicKey doc.id (doc.verificationMethod ++ [newMethod doc newKey]).length
      rw [hcount]
      rfl
    · show doc.authentication ++ _ =
        [keyIdForPublicKey doc.id ((doc.verificationMethod ++ [newMethod doc newKey]).length - 1), _]
      rw [hcount, hauth, Nat.add_sub_cancel]
      rfl
  · intro vm hvm
    show _ ↔ vm.id ∈ doc.authentication ++ [(newMethod doc newKey).id]
    rw [List.mem_append, List.mem_singleton]
    obtain hvm | hvm := List.mem_append.mp hvm
    · rw [h.live vm hvm]
      exact ⟨.inl, fun hid => hid.resolve_right (h.old_ne_new hvm newKey)⟩
    · obtain rfl := List.mem_singleton.mp hvm
      exact iff_of_true rfl (.inr rfl)
  · intro vm hvm
    obtain hvm | hvm := List.mem_append.mp hvm
    · exact h.dated vm hvm
    · obtain rfl := List.mem_singleton.mp hvm
      exact fun hdate => nomatch hdate

theorem shape_retired {methods : List RotatableVerificationMethod}
    (hids : methods.map RotatableVerificationMethod.id =
      (List.range methods.length).map (fun i => keyIdForPublicKey doc.id (i + 1)))
    (hdated : ∀ vm ∈ methods, vm.retiredAt ≠ some []) {oldId newId : Str} {ms : Int}
    (hlive : ∀ vm ∈ methods, vm.id ≠ oldId → (vm.retiredAt = none ↔ vm.id = newId)) (hne : oldId ≠ newId)
    (hlen : 1 ≤ methods.length) (hnew : newId = keyIdForPublicKey doc.id methods.length)
    (hid : doc'.id = doc.id) (hmethods : doc'.verificationMethod = retire oldId (toISOString ms) methods)
    (hauth : doc'.authentication = [newId]) (hpending : doc'.pendingRotation = none) : Shape doc' := by
  have hnodup : (methods.map RotatableVerificationMethod.id).Nodup := by
    rw [hids]
    exact List.Nodup.map (fun i j hij => Nat.succ.inj (keyId_injective hij)) List.nodup_range
  refine ⟨?_, fun _ => ⟨?_, ?_⟩, fun p hp => (nomatch hpending.symm.trans hp), ?_, ?_⟩
  · rw [hmethods, retire_ids, retire_length, hid, hids]
  · rw [hmethods, retire_length]
    exact hlen
  · rw [hmethods, retire_length, hid, hauth, hnew]
  · intro vm hvm
    rw [hmethods] at hvm
    rw [hauth, List.mem_singleton]
    obtain ⟨hvm, hold⟩ | ⟨hold, hretired⟩ := mem_retire hnodup hvm
    · exact hlive vm hvm hold
    · rw [hretired, hold]
      exact iff_of_false (fun hnone => nomatch hnone) hne
  · intro vm hvm
    rw [hmethods] at hvm
    obtain ⟨hvm, -⟩ | ⟨-, hretired⟩ := mem_retire hnodup hvm
    · exact hdated vm hvm
    · rw [hretired]
      exact fun hdate => toISOString_ne_nil ms (Option.some.inj hdate)

theorem shape_emergency (h : Shape doc) (hpending : doc.pendingRotation = none) {oldKey activeKeyId : Str} {now : Int}
    (hactive : activeKeyId = keyIdForPublicKey doc.id doc.verificationMethod.length) :
    Shape (announced doc (toISOString now) oldKey newKey .emergency activationTime signature activeKeyId) := by
  obtain ⟨hlen, hauth⟩ := h.settled hpending
  have hdated : ∀ vm ∈ doc.verificationMethod ++ [newMethod doc newKey], vm.retiredAt ≠ some [] := by
    intro vm hvm
    obtain hvm | hvm := List.mem_append.mp hvm
    · exact h.dated vm hvm
    · obtain rfl := List.mem_singleton.mp hvm
      exact fun hdate => nomatch hdate
  refine shape_retired (h.ids_new newKey) hdated ?_ ?_ ?_ ?_ rfl rfl rfl hpending
  · intro vm hvm hold
    obtain hvm | hvm := List.mem_append.mp hvm
    · rw [h.live vm hvm, hauth, List.mem_singleton, ← hactive]
      exact iff_of_false hold (h.old_ne_new hvm newKey)
    · obtain rfl := List.mem_singleton.mp hvm
      exact iff_of_true rfl rfl
  · rw [hactive, h.newMethod_id]
    intro heq
    have := keyId_injective heq
    omega
  · rw [List.length_append, List.length_singleton]
    omega
  · rw [List.length_append, List.length_singleton]
    rfl

end Announce

theorem shape_activated (h : Shape doc) {pending : PendingRotation} (hp : doc.pendingRotation = some pending) (ms : Int) :
    Shape (activated doc pending (toISOString ms)) := by
  obtain ⟨hlen, hnew, hauth⟩ := h.pending pending hp
  have hne : keyIdForPublicKey doc.id (doc.verificationMethod.length - 1) ≠ pending.newKeyId := by
    rw [hnew]
    intro heq
    have := keyId_injective heq
    omega
  have hold : doc.authentication.filter (fun id => id ≠ pending.newKeyId) =
      [keyIdForPublicKey doc.id (doc.verificationMethod.length - 1)] := by
    rw [hauth]
    simp [hne]
  have hmethods : (activated doc pending (toISOString ms)).verificationMethod =
      retire (keyIdForPublicKey doc.id (doc.verificationMethod.length - 1)) (toISOString ms) doc.verificationMethod := by
    rw [activated]
    simp only [hold]
    rfl
  refine shape_retired h.ids h.dated ?_ hne (by omega) hnew rfl hmethods rfl rfl
  intro vm hvm hid
  rw [h.live vm hvm, hauth, List.mem_cons, List.mem_singleton]
  exact or_iff_right hid

theorem Shape.active (h : Shape doc) (hpending : doc.pendingRotation = none) {privateKey publicKey : Str}
    {activeVm : RotatableVerificationMethod} (hown : checkOwnership R doc privateKey = .ok (publicKey, activeVm)) :
    activeVm.id = keyIdForPublicKey doc.id doc.verificationMethod.length := by
  rw [checkOwnership, (h.settled hpending).2, List.head?_cons, Option.bind_some] at hown
  cases hfind : findMethod (keyIdForPublicKey doc.id doc.verificationMethod.length) doc.verificationMethod with
  | none =>
    rw [hfind] at hown
    cases hown
  | some found =>
    rw [hfind] at hown
    have hid : found.id = keyIdForPublicKey doc.id doc.verificationMethod.length := by
      rw [findMethod] at hfind
      have hfound := List.find?_some hfind
      exact of_decide_eq_true hfound
    cases hpublic : R.publicKeyFromPrivate privateKey with
    | none =>
      simp only [hpublic] at hown
      cases hown
    | some key =>
      simp only [hpublic] at hown
      by_cases hmatch : key ≠ multibaseToHexSafe found.publicKeyMultibase
      · rw [if_pos hmatch] at hown
        cases hown
      · rw [if_neg hmatch] at hown
        cases hown
        exact hid

theorem step_cases (R : Runtime) (doc : RotatableDIDDocument) (call : Call) :
    step R doc call = doc ∨
    (∃ now privateKey newKey mode delay activationTime oldKey activeVm signature,
      call = .announce now privateKey newKey mode delay ∧ doc.pendingRotation = none ∧
      checkOwnership R doc privateKey = .ok (oldKey, activeVm) ∧
      step R doc call = announced doc (toISOString now) oldKey newKey mode activationTime signature activeVm.id) ∨
    ∃ pending ms, doc.pendingRotation = some pending ∧ step R doc call = activated doc pending (toISOString ms) := by
  cases call with
  | announce now privateKey newKey mode delay =>
    rw [step]
    cases hcall : announceKeyRotation R doc now privateKey newKey mode delay with
    | error e => exact .inl rfl
    | ok doc' =>
      rw [announceKeyRotation] at hcall
      by_cases hsome : doc.pendingRotation.isSome = true
      · rw [if_pos hsome] at hcall
        cases hcall
      rw [if_neg hsome] at hcall
      obtain ⟨activationTime, -, hcall⟩ := bind_eq_ok.mp hcall
      obtain ⟨⟨oldKey, activeVm⟩, hown, hcall⟩ := bind_eq_ok.mp hcall
      obtain ⟨signature, -, hcall⟩ := bind_eq_ok.mp hcall
      cases hcall
      exact .inr (.inl ⟨now, privateKey, newKey, mode, delay, activationTime, oldKey, activeVm, signature, rfl,
        Option.not_isSome_iff_eq_none.mp hsome, hown, rfl⟩)
  | activate now =>
    rw [step]
    cases hcall : activateKeyRotation doc now with
    | error e => exact .inl rfl
    | ok doc' =>
      rw [activateKeyRotation] at hcall
      cases hp : doc.pendingRotation with
      | none =>
        rw [hp] at hcall
        cases hcall
      | some pending =>
        simp only [hp] at hcall
        cases hparse : parseRfc3339 (.str pending.activationTime) with
        | error reason =>
          simp only [hparse] at hcall
          cases hcall
        | ok activation =>
          simp only [hparse] at hcall
          cases now with
          | none => cases hcall
          | some ms =>
            simp only at hcall
            by_cases hearly : ms < activation
            · rw [if_pos hearly] at hcall
              cases hcall
            · rw [if_neg hearly] at hcall
              cases hcall
              exact .inr (.inr ⟨pending, ms, rfl, rfl⟩)

theorem shape_step (h : Shape doc) (call : Call) : Shape (step R doc call) := by
  obtain heq |
    ⟨now, privateKey, newKey, mode, delay, activationTime, oldKey, activeVm, signature, -, hpending, hown, heq⟩ |
    ⟨pending, ms, hp, heq⟩ := step_cases R doc call
  · rw [heq]
    exact h
  · rw [heq]
    cases mode with
    | planned => exact shape_planned h hpending oldKey activeVm.id
    | emergency => exact shape_emergency h hpending (h.active hpending hown)
  · rw [heq]
    exact shape_activated h hp ms

theorem shape_run (h : Shape doc) (calls : List Call) : Shape (run R doc calls) := by
  induction calls generalizing doc with
  | nil => exact h
  | cons call rest ih => exact ih (shape_step h call)

theorem Shape.inForce_late (h : Shape doc) {now : Int} {i : Nat} (hvm : doc.verificationMethod[i]? = some vm)
    (hforce : InForce doc now vm) : doc.verificationMethod.length ≤ i + 2 := by
  obtain ⟨-, hid⟩ := h.id_at hvm
  have hmem := hforce.1
  cases hp : doc.pendingRotation with
  | none =>
    rw [(h.settled hp).2, List.mem_singleton, hid] at hmem
    have := keyId_injective hmem
    omega
  | some pending =>
    obtain ⟨-, hnew, hauth⟩ := h.pending pending hp
    rw [hauth, hnew, List.mem_cons, List.mem_singleton, hid] at hmem
    obtain heq | heq := hmem
    · have := keyId_injective heq
      omega
    · have := keyId_injective heq
      omega

theorem supersededNow_iff (pending : PendingRotation) (now : Int) :
    supersededNow pending (some now) = true ↔
      ¬ ∃ activation, parseRfc3339 (.str pending.activationTime) = .ok activation ∧ now < activation := by
  rw [supersededNow]
  cases hparse : parseRfc3339 (.str pending.activationTime) with
  | error reason => exact iff_of_true rfl (fun ⟨activation, heq, _⟩ => nomatch heq)
  | ok activation =>
    rw [decide_eq_true_iff, ← Int.not_lt]
    refine not_congr ⟨fun hlt => ⟨activation, rfl, hlt⟩, ?_⟩
    intro h
    obtain ⟨found, heq, hlt⟩ := h
    exact Except.ok.inj heq ▸ hlt

theorem Shape.isKeyActive_iff (h : Shape doc) (publicKey : Str) (now : Int) :
    isKeyActive doc publicKey (some now) = true ↔
      ∃ vm, doc.verificationMethod.find? (fun v => Carries publicKey v) = some vm ∧ InForce doc now vm := by
  rw [isKeyActive]
  cases hfind : doc.verificationMethod.find? (fun v => Carries publicKey v) with
  | none => exact iff_of_false Bool.false_ne_true (fun ⟨vm, hvm, _⟩ => nomatch hvm)
  | some vm =>
    have hvm := List.mem_of_find?_eq_some hfind
    have hlive := h.live vm hvm
    have hexists : (∃ found, some vm = some found ∧ InForce doc now found) ↔ InForce doc now vm :=
      ⟨fun ⟨found, heq, hforce⟩ => Option.some.inj heq ▸ hforce, fun hforce => ⟨vm, rfl, hforce⟩⟩
    rw [hexists]
    by_cases hmem : vm.id ∈ doc.authentication
    · have hnone : ¬ vm.retiredAt.getD [] ≠ [] := by
        rw [hlive.mpr hmem]
        exact fun hne => hne rfl
      simp only [if_neg hnone, if_neg (not_not.mpr hmem)]
      cases hp : doc.pendingRotation with
      | none => exact iff_of_true rfl ⟨hmem, fun pending hsome => (nomatch hp.symm.trans hsome)⟩
      | some pending =>
        have hforce : InForce doc now vm ↔
            ¬ (pending.newKeyId ≠ vm.id ∧ supersededNow pending (some now) = true) := by
          rw [supersededNow_iff, not_and_or, not_not, not_not, InForce, hp]
          exact ⟨fun h => h.2 pending rfl, fun h => ⟨hmem, fun found hfound => Option.some.inj hfound ▸ h⟩⟩
        rw [hforce]
        by_cases hout : pending.newKeyId ≠ vm.id ∧ supersededNow pending (some now) = true
        · exact iff_of_false (by simp only [if_pos hout]; decide) (not_not.mpr hout)
        · exact iff_of_true (if_neg hout) hout
    · have hretired : vm.retiredAt.getD [] ≠ [] := by
        cases hdate : vm.retiredAt with
        | none => exact absurd (hlive.mp hdate) hmem
        | some date =>
          intro hnil
          exact h.dated vm hvm (hdate.trans (congrArg some hnil))
      simp only [if_pos hretired]
      exact iff_of_false Bool.false_ne_true (fun hforce => hmem hforce.1)

theorem Shape.agrees_iff (h : Shape doc) (publicKey : Str) (now : Int) :
    (isKeyActive doc publicKey (some now) = true ↔ KeyInForce doc publicKey now) ↔ ¬ Shadowed doc publicKey now := by
  rw [h.isKeyActive_iff]
  constructor
  · intro hagree hshadowed
    obtain ⟨i, j, old, vm, hij, hold, hvm, hcold, hcvm, hforce, hout⟩ := hshadowed
    obtain ⟨found, hfind, hfound⟩ := hagree.mpr ⟨vm, List.mem_of_getElem? hvm, hcvm, hforce⟩
    obtain ⟨-, a, ha, hat, hbefore⟩ := List.find?_eq_some_iff_getElem.mp hfind
    have hai : a ≤ i := by
      by_contra hlt
      obtain ⟨hi, rfl⟩ := List.getElem?_eq_some_iff.mp hold
      have hnot := hbefore i (by omega)
      rw [decide_eq_true hcold] at hnot
      cases hnot
    have hfa : doc.verificationMethod[a]? = some found := by rw [List.getElem?_eq_getElem ha, hat]
    have hlate := h.inForce_late hfa hfound
    obtain ⟨hj, -⟩ := h.id_at hvm
    obtain rfl : a = i := by omega
    rw [hfa] at hold
    exact hout (Option.some.inj hold ▸ hfound)
  · intro hnot
    constructor
    · intro hactive
      obtain ⟨vm, hfind, hforce⟩ := hactive
      have hcarries := List.find?_some hfind
      exact ⟨vm, List.mem_of_find?_eq_some hfind, of_decide_eq_true hcarries, hforce⟩
    · intro hkey
      obtain ⟨vm, hvm, hcvm, hforce⟩ := hkey
      obtain ⟨j, hj⟩ := List.getElem?_of_mem hvm
      have hsome : (doc.verificationMethod.find? (fun v => Carries publicKey v)).isSome = true :=
        List.find?_isSome.mpr ⟨vm, hvm, decide_eq_true hcvm⟩
      obtain ⟨found, hfind⟩ := Option.isSome_iff_exists.mp hsome
      refine ⟨found, hfind, ?_⟩
      obtain ⟨hcarries, a, ha, hat, hbefore⟩ := List.find?_eq_some_iff_getElem.mp hfind
      have hfa : doc.verificationMethod[a]? = some found := by rw [List.getElem?_eq_getElem ha, hat]
      obtain hlt | rfl | hgt := Nat.lt_trichotomy a j
      · by_contra hout
        exact hnot ⟨a, j, found, vm, hlt, hfa, hj, of_decide_eq_true hcarries, hcvm, hforce, hout⟩
      · rw [hfa] at hj
        exact Option.some.inj hj ▸ hforce
      · obtain ⟨hlen, rfl⟩ := List.getElem?_eq_some_iff.mp hj
        have hcontra := hbefore j hgt
        rw [decide_eq_true hcvm] at hcontra
        cases hcontra

/-- Every announced key is new to the document at that time. -/
def FreshRun (R : Runtime) : RotatableDIDDocument → List Call → Prop
  | _, [] => True
  | doc, call :: rest =>
    (∀ now privateKey newKey mode delay, call = .announce now privateKey newKey mode delay →
      ∀ vm ∈ doc.verificationMethod, ¬ Carries newKey vm) ∧ FreshRun R (step R doc call) rest

def KeysDistinct (doc : RotatableDIDDocument) : Prop :=
  (doc.verificationMethod.map RotatableVerificationMethod.publicKeyMultibase).Nodup

theorem retire_keys (id retiredAt : Str) (methods : List RotatableVerificationMethod) :
    (retire id retiredAt methods).map RotatableVerificationMethod.publicKeyMultibase =
      methods.map RotatableVerificationMethod.publicKeyMultibase :=
  retire_map _ (fun _ _ => rfl) id retiredAt methods

theorem retireAll_keys (ids : List Str) (retiredAt : Str) (methods : List RotatableVerificationMethod) :
    (ids.foldl (fun methods id => retire id retiredAt methods) methods).map RotatableVerificationMethod.publicKeyMultibase =
      methods.map RotatableVerificationMethod.publicKeyMultibase := by
  induction ids generalizing methods with
  | nil => rfl
  | cons id rest ih => exact (ih _).trans (retire_keys id retiredAt methods)

theorem keysDistinct_announced (h : KeysDistinct doc) {newKey : Str}
    (hnew : ∀ vm ∈ doc.verificationMethod, ¬ Carries newKey vm)
    (announcedAt oldKey : Str) (mode : RotationMode) (activationTime signature activeKeyId : Str) :
    KeysDistinct (announced doc announcedAt oldKey newKey mode activationTime signature activeKeyId) := by
  have hgrown : ((doc.verificationMethod ++ [newMethod doc newKey]).map
      RotatableVerificationMethod.publicKeyMultibase).Nodup := by
    rw [List.map_append, List.nodup_append]
    refine ⟨h, List.nodup_singleton _, ?_⟩
    intro a ha b hb heq
    obtain ⟨vm, hvm, rfl⟩ := List.mem_map.mp ha
    exact hnew vm hvm (heq.trans (List.mem_singleton.mp hb))
  cases mode with
  | planned => exact hgrown
  | emergency =>
    have hkeys := retire_keys activeKeyId announcedAt (doc.verificationMethod ++ [newMethod doc newKey])
    rw [← hkeys] at hgrown
    exact hgrown

theorem keysDistinct_step (h : KeysDistinct doc) {call : Call}
    (hnew : ∀ now privateKey newKey mode delay, call = .announce now privateKey newKey mode delay →
      ∀ vm ∈ doc.verificationMethod, ¬ Carries newKey vm) : KeysDistinct (step R doc call) := by
  obtain heq | ⟨now, privateKey, newKey, mode, delay, activationTime, oldKey, activeVm, signature, hcall, -, -, heq⟩ |
    ⟨pending, ms, -, heq⟩ := step_cases R doc call
  · rw [heq]
    exact h
  · rw [heq]
    exact keysDistinct_announced h (hnew _ _ _ _ _ hcall) _ _ mode _ _ _
  · rw [heq, KeysDistinct, activated]
    simp only [retireAll_keys]
    exact h

theorem keysDistinct_run (calls : List Call) :
    ∀ doc, KeysDistinct doc → FreshRun R doc calls → KeysDistinct (run R doc calls) := by
  induction calls with
  | nil => exact fun doc h _ => h
  | cons call rest ih => exact fun doc h hfresh => ih _ (keysDistinct_step h hfresh.1) hfresh.2

theorem not_shadowed_of_distinct (h : KeysDistinct doc) (publicKey : Str) (now : Int) : ¬ Shadowed doc publicKey now := by
  intro hshadowed
  obtain ⟨i, j, old, vm, hij, hold, hvm, hcold, hcvm, -, -⟩ := hshadowed
  have hi : (doc.verificationMethod.map RotatableVerificationMethod.publicKeyMultibase)[i]? =
      some (hexToMultibase publicKey) := by
    rw [List.getElem?_map, hold]
    exact congrArg some hcold
  have hj : (doc.verificationMethod.map RotatableVerificationMethod.publicKeyMultibase)[j]? =
      some (hexToMultibase publicKey) := by
    rw [List.getElem?_map, hvm]
    exact congrArg some hcvm
  have hlt := (List.getElem?_eq_some_iff.mp hi).1
  have hsame := (List.getElem?_inj hlt h).mp (hi.trans hj.symm)
  omega

/-- In every document a run reaches, the answer for a key at an instant is right exactly when no method
in force has the key from an earlier method that is not in force; and it is right for every key and
instant when every announced key was new. -/
theorem active_iff_in_force (R : Runtime) (passport : Passport) (doc : RotatableDIDDocument)
    (hdoc : createDIDDocument passport = .ok doc) (calls : List Call) :
    (∀ publicKey now, (isKeyActive (run R doc calls) publicKey (some now) = true ↔
      KeyInForce (run R doc calls) publicKey now) ↔ ¬ Shadowed (run R doc calls) publicKey now) ∧
    (FreshRun R doc calls → ∀ publicKey now, isKeyActive (run R doc calls) publicKey (some now) = true ↔
      KeyInForce (run R doc calls) publicKey now) := by
  have hshape : Shape (run R doc calls) := shape_run (shape_create hdoc) calls
  refine ⟨fun publicKey now => hshape.agrees_iff publicKey now, ?_⟩
  intro hfresh publicKey now
  have hdistinct : KeysDistinct doc := by
    obtain ⟨did, -, hcreated⟩ := bind_eq_ok.mp hdoc
    cases hcreated
    exact List.nodup_singleton _
  have hreached := keysDistinct_run calls doc hdistinct hfresh
  exact (hshape.agrees_iff publicKey now).mpr (not_shadowed_of_distinct hreached publicKey now)

/-- The log leads from the key of the DID, entry by entry, to a key in the authentication list. -/
structure Connected (doc : RotatableDIDDocument) : Prop where
  first : ∀ e, doc.rotationLog.head? = some e → publicKeyFromDID doc.id = .ok e.previousKey
  linked : ∀ i (e e' : DIDRotationEntry), doc.rotationLog[i]? = some e → doc.rotationLog[i + 1]? = some e' → e.newKey = e'.previousKey
  last : ∀ e, doc.rotationLog.getLast? = some e →
    ∃ vm ∈ doc.verificationMethod, vm.id ∈ doc.authentication ∧ multibaseToHex vm.publicKeyMultibase = .ok e.newKey

theorem verifyRotationChain_iff (R : Runtime) (doc : RotatableDIDDocument) :
    verifyRotationChain R doc = true ↔
      ∀ e ∈ doc.rotationLog, Signed R e.previousKey e.newKey e.mode e.activationTime e.rotationSignature := by
  rw [verifyRotationChain, List.all_eq_true]
  refine forall_congr' (fun e => forall_congr' (fun _ => ?_))
  cases hpayload : canonicalRotationPayload R e.previousKey e.newKey e.mode e.activationTime with
  | error err =>
    refine iff_of_false Bool.false_ne_true ?_
    rintro ⟨payload, heq, -⟩
    cases hpayload.symm.trans heq
  | ok payload =>
    refine ⟨fun hverify => ⟨payload, hpayload, hverify⟩, ?_⟩
    intro hsigned
    obtain ⟨found, heq, hverify⟩ := hsigned
    exact Except.ok.inj (hpayload.symm.trans heq) ▸ hverify

theorem connected_of_records {did genesis : Str} {past : List Str} {current : Str} {next : Option Str}
    (h : Records R did genesis doc past current next) (hdid : publicKeyFromDID did = .ok genesis) : Connected doc where
  first := (h.laws hdid).first
  linked := (h.laws hdid).linked
  last := by
    intro e he
    obtain ⟨vm, hvm, hid, hdecoded⟩ := h.methods.exists (i := past.length) (k := current) (by simp)
    have hlen : doc.rotationLog.length = past.length := by
      rw [← links_length past current, ← h.log, List.length_map]
    have hpos : 0 < past.length := by
      rw [← hlen, List.length_pos_iff]
      intro hnil
      rw [hnil] at he
      cases he
    rw [List.getLast?_eq_getElem?, hlen] at he
    have hnew := (h.entry he).2
    rw [Nat.sub_add_cancel hpos, List.getElem?_concat_length] at hnew
    refine ⟨vm, hvm, ?_, ?_⟩
    · rw [h.authentication, hid]
      exact List.mem_cons_self
    · rw [← Option.some.inj hnew]
      cases hk : multibaseToHex vm.publicKeyMultibase with
      | ok hex =>
        rw [decoded, hk] at hdecoded
        exact congrArg _ (Option.some.inj hdecoded)
      | error err =>
        rw [decoded, hk] at hdecoded
        cases hdecoded

/-- The chain verifies exactly when every entry is signed by the key it gives up, whatever the entries
have to do with each other; in the documents that rotations make, the log is connected. -/
theorem chain_verifies_entries (R : Runtime) (hsign : SignsFor R) :
    (∀ doc, verifyRotationChain R doc = true ↔
      ∀ e ∈ doc.rotationLog, Signed R e.previousKey e.newKey e.mode e.activationTime e.rotationSignature) ∧
    ∀ passport doc, createDIDDocument passport = .ok doc → ∀ calls,
      (∀ now privateKey newKey mode delay, Call.announce now privateKey newKey mode delay ∈ calls →
        isLowerHexOf 64 newKey = true) →
      verifyRotationChain R (run R doc calls) = true ∧ Connected (run R doc calls) := by
  refine ⟨fun doc => verifyRotationChain_iff R doc, ?_⟩
  intro passport doc hdoc calls hkeys
  obtain ⟨past, current, next, hrecords⟩ := run_records hsign calls hkeys doc ⟨_, _, _, records_create hdoc⟩
  have hdid : publicKeyFromDID doc.id = .ok (bytesToHex (hexToBytes passport.publicKey)) := by
    obtain ⟨did, hdid, hcreated⟩ := bind_eq_ok.mp hdoc
    cases hcreated
    exact publicKeyFromDID_create hdid
  exact ⟨(hrecords.laws hdid).verifies, connected_of_records hrecords hdid⟩

section Sample
open DelegationChain (rootKey childKey)

theorem active_iff_in_force_back : ∃ doc, createDIDDocument samplePassport = .ok doc ∧
    ∀ publicKey now, (isKeyActive (run sampleRuntime doc sampleCalls) publicKey (some now) = true ↔
      KeyInForce (run sampleRuntime doc sampleCalls) publicKey now) ↔
        ¬ Shadowed (run sampleRuntime doc sampleCalls) publicKey now :=
  ⟨_, rfl, (active_iff_in_force sampleRuntime samplePassport _ rfl sampleCalls).1⟩

/-- The key is rotated away and back: it is the current key, and reported dead. -/
theorem live_key_reported_dead : ∃ doc, createDIDDocument samplePassport = .ok doc ∧
    KeyInForce (run sampleRuntime doc sampleCalls) rootKey 1767312000000 ∧
    isKeyActive (run sampleRuntime doc sampleCalls) rootKey (some 1767312000000) = false := by
  have hreached : ∀ doc, createDIDDocument samplePassport = .ok doc →
      ∀ reached, run sampleRuntime doc sampleCalls = reached →
      (reached.pendingRotation = none ∧
        ∃ vm ∈ reached.verificationMethod, Carries rootKey vm ∧ vm.id ∈ reached.authentication) ∧
      isKeyActive reached rootKey (some 1767312000000) = false := by
    intro doc hdoc reached hrun
    cases hdoc
    subst hrun
    decide +kernel
  obtain ⟨⟨hpending, vm, hvm, hcarries, hid⟩, hdead⟩ := hreached _ rfl _ rfl
  exact ⟨_, rfl, ⟨vm, hvm, hcarries, hid, fun pending hp => (nomatch hpending.symm.trans hp)⟩, hdead⟩

theorem chain_verifies_entries_back : SignsFor sampleRuntime ∧ ∃ doc, createDIDDocument samplePassport = .ok doc ∧
    verifyRotationChain sampleRuntime (run sampleRuntime doc sampleCalls) = true ∧
    Connected (run sampleRuntime doc sampleCalls) := by
  refine ⟨sampleRuntime_signsFor, _, rfl, ?_⟩
  refine (chain_verifies_entries sampleRuntime sampleRuntime_signsFor).2 samplePassport _ rfl sampleCalls ?_
  intro now privateKey newKey mode delay hmem
  simp only [sampleCalls, List.mem_cons, List.not_mem_nil, or_false, reduceCtorEq, Call.announce.injEq] at hmem
  obtain ⟨-, -, rfl, -⟩ | ⟨-, -, rfl, -⟩ := hmem
  · decide
  · decide

/-- The document of one key, with a log that another key signed. -/
theorem unconnected_log_verifies : SignsFor sampleRuntime ∧ ∃ doc, doc.rotationLog ≠ [] ∧
    verifyRotationChain sampleRuntime doc = true ∧ ¬ Connected doc := by
  let entry : DIDRotationEntry := ⟨childKey, rootKey, .planned, lit "2026-01-01T00:00:00.000Z",
    lit "2026-01-02T00:00:00.000Z", .activated, backSignature, lit "2026-01-02T00:00:00.000Z"⟩
  obtain ⟨doc, hdoc⟩ : ∃ doc, createDIDDocument samplePassport = .ok doc := ⟨_, rfl⟩
  refine ⟨sampleRuntime_signsFor, { doc with rotationLog := [entry] }, List.cons_ne_nil _ _, ?_, ?_⟩
  · change [entry].all _ = true
    decide +kernel
  · intro hconnected
    have hfirst : publicKeyFromDID doc.id = .ok childKey := hconnected.first entry rfl
    obtain ⟨did, hdid, hcreated⟩ := bind_eq_ok.mp hdoc
    cases hcreated
    rw [publicKeyFromDID_create hdid] at hfirst
    exact absurd (Except.ok.inj hfirst) (by decide)

end Sample

end AgentPassport.KeyStanding
