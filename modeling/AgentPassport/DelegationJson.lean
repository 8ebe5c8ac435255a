import AgentPassport.CanonicalInjective
import AgentPassport.DelegationSchema

/-! A record that passes the closed schema is a JSON value, so that every canonical text taken
of it exists. -/
namespace AgentPassport.DelegationJson
open JsText Js CanonicalJcs CanonicalInjective DelegationSchema

theorem wellFormed_of_ijson {s : Str} (h : isIJSONString s = true) : WellFormed s := by
  fun_induction isIJSONString s with
  | case1 => rfl
  | case2 c =>
    simp only [Bool.and_eq_true, Bool.not_eq_true'] at h
    simp [WellFormed, loneSurrogate, h.1.1, h.1.2]
  | case3 c d rest hhigh ih =>
    simp only [Bool.and_eq_true] at h
    have hrest := ih h.2
    simpa [WellFormed, loneSurrogate, hhigh, h.1.1] using hrest
  | case4 c d rest hhigh ih =>
    simp only [Bool.and_eq_true, Bool.not_eq_true'] at h
    have hrest := ih h.2
    simpa [WellFormed, loneSurrogate, hhigh, h.1.1] using hrest

theorem itemsAreIJSON_iff {items : List JsValue} :
    itemsAreIJSON items = true ↔ ∀ v ∈ items, isIJSONValue v = true := by
  induction items with
  | nil => simp [itemsAreIJSON]
  | cons v rest ih => simp [itemsAreIJSON, ih]

variable {members : List (Str × JsValue)}

theorem membersAreIJSON_iff : membersAreIJSON members = true ↔
      ∀ m ∈ members, isIJSONString m.1 = true ∧ isIJSONValue m.2 = true := by
  induction members with
  | nil => simp [membersAreIJSON]
  | cons m rest ih => simp [membersAreIJSON, ih]

variable {names : List String}

theorem names_perm (h : exactKeys members names = true) : (members.map Prod.fst).Perm (names.map lit) := by
  have hsorted : sortNames (members.map Prod.fst) = sortNames (names.map lit) := of_decide_eq_true h
  refine (List.perm_insertionSort (fun a b => a ≤ b) (members.map Prod.fst)).symm.trans ?_
  rw [show List.insertionSort (fun a b => a ≤ b) (members.map Prod.fst) = sortNames (names.map lit)
    from hsorted]
  exact List.perm_insertionSort _ _

theorem record_closed {v : JsValue} (hrecord : record v = some members) (hkeys : exactKeys members names = true)
    (hne : names ≠ []) : v = .obj members := by
  unfold record at hrecord
  split at hrecord
  · cases hrecord
    rfl
  · cases hrecord
    exact absurd (List.map_eq_nil_iff.mp (names_perm hkeys).symm.eq_nil) hne
  · cases hrecord

theorem isJson_closed {v : JsValue} (hrecord : record v = some members) (hkeys : exactKeys members names = true)
    (hne : names ≠ []) (hnames : (names.map lit).Nodup) (hij : isIJSONValue v = true)
    (hfields : ∀ name ∈ names, isIJSONValue (field members name) = true → IsJson (field members name)) : IsJson v := by
  have hperm := names_perm hkeys
  have hnodup : (members.map Prod.fst).Nodup := hperm.nodup_iff.mpr hnames
  obtain rfl := record_closed hrecord hkeys hne
  rw [isIJSONValue, membersAreIJSON_iff] at hij
  refine .obj hnodup (fun m hm => wellFormed_of_ijson (hij m hm).1) ?_
  intro m hm
  obtain ⟨name, hname, hlit⟩ := List.mem_map.mp (hperm.mem_iff.mp (List.mem_map_of_mem hm))
  have hfield : field members name = m.2 := by
    rw [field, (member?_eq_some hnodup).mpr (hlit ▸ hm : (lit name, m.2) ∈ members), Option.getD_some]
  have hjson := hfields name hname
  rw [hfield] at hjson
  exact hjson (hij m hm).2

theorem isJson_str {v : JsValue} {s : Str} (hs : str? v = some s) (hij : isIJSONValue v = true) :
    IsJson v := by
  unfold str? at hs
  split at hs
  · exact .str (wellFormed_of_ijson (by rwa [isIJSONValue] at hij))
  · cases hs

theorem isJson_stringWhere {test : Str → Bool} {v : JsValue} (h : stringWhere test v = true)
    (hij : isIJSONValue v = true) : IsJson v := by
  obtain ⟨s, hs, -⟩ := stringWhere_read h
  exact isJson_str hs hij

theorem isJson_integer {max : Nat} {v : JsValue} (h : integerUpTo max v = true) : IsJson v := by
  unfold integerUpTo at h
  split at h
  · exact .num _
  · cases h

theorem isJson_strings {items : List JsValue} {ss : List Str} (h : strings? items = some ss)
    (hij : itemsAreIJSON items = true) : IsJson (.arr items) := by
  refine .arr ?_
  induction items generalizing ss with
  | nil =>
    intro v hv
    cases hv
  | cons w rest ih =>
    rw [strings?] at h
    simp only [Option.bind_eq_bind, Option.bind_eq_some_iff] at h
    obtain ⟨s, hs, tail, htail, -⟩ := h
    rw [itemsAreIJSON, Bool.and_eq_true] at hij
    exact List.forall_mem_cons.mpr ⟨isJson_str hs hij.1, ih htail hij.2⟩

section Facets
variable {v : JsValue} (hij : isIJSONValue v = true)
include hij

theorem scope_json (h : scopeFailures v = []) : IsJson v := by
  obtain ⟨members, hrecord, hprofile, hcheck⟩ := profiled_inv h
  split at hcheck
  · rename_i items hkeys hitems
    split at hcheck
    · rename_i grants hgrants
      refine isJson_closed hrecord hkeys (by decide) (by decide) hij ?_
      simp only [List.forall_mem_cons]
      refine ⟨isJson_str hprofile, fun hgrant => ?_, List.forall_mem_nil _⟩
      rw [hitems] at hgrant ⊢
      exact isJson_strings hgrants (by rwa [isIJSONValue] at hgrant)
    · cases hcheck
  · cases hcheck

theorem spend_json (h : spendFailures v = []) : IsJson v := by
  unfold spendFailures at h
  split at h
  · cases h
  rename_i members hrecord
  split at h
  · cases h
  rename_i mode hmode
  split at h
  · refine isJson_closed hrecord (require_eq_nil.mp h) (by decide) (by decide) hij ?_
    simp only [List.forall_mem_cons]
    exact ⟨isJson_str hmode, List.forall_mem_nil _⟩
  split at h
  · unfold boundedSpendFailures at h
    split at h
    · rename_i hfields
      simp only [Bool.and_eq_true] at hfields
      obtain ⟨⟨⟨hkeys, hunit⟩, -⟩, -⟩ := hfields
      split at h
      · rename_i perAction cumulative hper hcum
        refine isJson_closed hrecord hkeys (by decide) (by decide) hij ?_
        simp only [List.forall_mem_cons]
        refine ⟨isJson_str hmode, fun hij' => ?_, isJson_str hper, isJson_str hcum, List.forall_mem_nil _⟩
        unfold isAdmissibleIdentifier at hunit
        split at hunit
        · rename_i unit hunit'
          exact isJson_str hunit' hij'
        · cases hunit
      · cases h
    · cases h
  · cases h

theorem depth_json (h : depthFailures v = []) : IsJson v := by
  unfold depthFailures at h
  split at h
  · cases h
  · rename_i members hrecord
    obtain ⟨hkeys, hremaining⟩ := Bool.and_eq_true _ _ ▸ require_eq_nil.mp h
    refine isJson_closed hrecord hkeys (by decide) (by decide) hij ?_
    simp only [List.forall_mem_cons]
    exact ⟨fun _ => isJson_integer hremaining, List.forall_mem_nil _⟩

theorem time_json {p i : JsValue} (h : timeFailures v p i = []) : IsJson v := by
  unfold timeFailures at h
  split at h
  · cases h
  rename_i members hrecord
  split at h
  · rename_i notBefore notAfter hbefore hafter
    split at h
    · cases h
    · rename_i hkeys
      simp only [Bool.not_eq_true', Bool.not_eq_false, Bool.and_eq_true] at hkeys
      refine isJson_closed hrecord hkeys.1.1 (by decide) (by decide) hij ?_
      simp only [List.forall_mem_cons]
      exact ⟨isJson_str hbefore, isJson_str hafter, List.forall_mem_nil _⟩
  · cases h

theorem reputation_json (h : reputationFailures v = []) : IsJson v := by
  obtain ⟨members, hrecord, hprofile, hcheck⟩ := profiled_inv h
  obtain ⟨hkeys, hceiling⟩ := Bool.and_eq_true _ _ ▸ require_eq_nil.mp hcheck
  refine isJson_closed hrecord hkeys (by decide) (by decide) hij ?_
  simp only [List.forall_mem_cons]
  exact ⟨isJson_str hprofile, fun _ => isJson_integer hceiling, List.forall_mem_nil _⟩

theorem values_json (h : valuesFailures v = []) : IsJson v := by
  obtain ⟨members, hrecord, hprofile, hcheck⟩ := profiled_inv h
  split at hcheck
  · rename_i items hkeys hitems
    split at hcheck
    · split at hcheck
      · rename_i required hrequired
        refine isJson_closed hrecord hkeys (by decide) (by decide) hij ?_
        simp only [List.forall_mem_cons]
        refine ⟨isJson_str hprofile, fun hvalue => ?_, List.forall_mem_nil _⟩
        rw [hitems] at hvalue ⊢
        exact isJson_strings hrequired (by rwa [isIJSONValue] at hvalue)
      · cases hcheck
    · cases hcheck
  · cases hcheck

theorem reversibility_json (h : reversibilityFailures v = []) : IsJson v := by
  obtain ⟨members, hrecord, hprofile, hcheck⟩ := profiled_inv h
  split at hcheck
  · rename_i ceiling hkeys hceiling
    refine isJson_closed hrecord hkeys (by decide) (by decide) hij ?_
    simp only [List.forall_mem_cons]
    exact ⟨isJson_str hprofile, isJson_str hceiling, List.forall_mem_nil _⟩
  · cases hcheck

theorem authority_json {p i : JsValue} (h : authorityFailures v p i = []) : IsJson v := by
  unfold authorityFailures at h
  split at h
  · cases h
  rename_i members hrecord
  split at h
  · cases h
  · rename_i hkeys
    simp only [List.append_eq_nil_iff] at h
    obtain ⟨⟨⟨⟨⟨⟨hscope, hspend⟩, hdepth⟩, htime⟩, hreputation⟩, hvalues⟩, hreversibility⟩ := h
    refine isJson_closed hrecord (by simpa using hkeys) (by decide) (by decide) hij ?_
    simp only [List.forall_mem_cons]
    exact ⟨(scope_json · hscope), (spend_json · hspend), (depth_json · hdepth), (time_json · htime),
      (reputation_json · hreputation), (values_json · hvalues), (reversibility_json · hreversibility),
      List.forall_mem_nil _⟩

end Facets

theorem name_json {key : String} {v : JsValue} (h : nameFailures key v = [])
    (hij : isIJSONValue v = true) : IsJson v := by
  obtain ⟨s, hs⟩ := name_read h
  exact isJson_str hs hij

theorem shaped_isJson (r : ShapedRecord) : IsJson r.value := by
  obtain ⟨top, htop, htype, hversion, hkeys, hbody⟩ := shape_inv r.shape
  simp only [bodyFailures, List.append_eq_nil_iff, require_eq_nil] at hbody
  obtain ⟨⟨⟨⟨⟨⟨⟨⟨⟨hij, hid⟩, hparent⟩, hissuer⟩, hsubject⟩, hmethod⟩, hissued⟩, hnonce⟩, hsignature⟩,
    hauthority⟩ := hbody
  have hvalue : isIJSONValue r.value = true := by
    rw [record_closed htop hkeys (by decide), isIJSONValue]
    exact hij
  refine isJson_closed htop hkeys (by decide) (by decide) hvalue ?_
  simp only [delegationKeys, List.forall_mem_cons]
  refine ⟨isJson_str htype, isJson_str hversion, isJson_stringWhere hid, fun hij' => ?_,
    name_json hissuer, name_json hsubject, name_json hmethod,
    isJson_stringWhere (show stringWhere canonicalTimestamp _ = true from hissued),
    isJson_stringWhere hnonce, (authority_json · hauthority), isJson_stringWhere hsignature,
    List.forall_mem_nil _⟩
  split at hparent
  · rename_i hnull
    rw [hnull]
    exact .null
  · exact isJson_stringWhere hparent hij'

theorem body_isJson (r : ShapedRecord) : IsJson (authorityDelegationBody r.value) :=
  isJson_omit _ (isJson_omit _ (shaped_isJson r))

/-! ### Records whose bodies agree

What a typed field holds depends on the value only up to the order of members. -/

theorem field_same {ms ns : List (Str × JsValue)} (h : Same (.obj ms) (.obj ns)) (name : String) :
    field ms name = field ns name ∨ Same (field ms name) (field ns name) := by
  cases h with
  | obj hnames hmembers =>
    have hfound : ∀ {xs ys : List (Str × JsValue)} {m : Str × JsValue},
        (xs.map Prod.fst).Perm (ys.map Prod.fst) → xs.find? (fun m => m.1 = lit name) = some m →
        ∃ n, ys.find? (fun m => m.1 = lit name) = some n := by
      intro xs ys m hperm hm
      obtain ⟨hmem, hname⟩ := find_name hm
      obtain ⟨n, hn, heq⟩ := List.mem_map.mp (hperm.mem_iff.mp (List.mem_map_of_mem hmem))
      have hsome : (ys.find? (fun m => m.1 = lit name)).isSome = true := by
        rw [List.find?_isSome]
        exact ⟨n, hn, decide_eq_true (heq.trans hname)⟩
      exact Option.isSome_iff_exists.mp hsome
    cases hm : ms.find? (fun m => m.1 = lit name) with
    | none =>
      left
      cases hn : ns.find? (fun m => m.1 = lit name) with
      | none => rw [field, field, member?, member?, hm, hn]
      | some n =>
        obtain ⟨m, hm'⟩ := hfound hnames.symm hn
        rw [hm] at hm'
        cases hm'
    | some m =>
      right
      obtain ⟨n, hn⟩ := hfound hnames hm
      rw [field, field, member?, member?, hm, hn]
      obtain ⟨hmem, hname⟩ := find_name hm
      obtain ⟨hmem', hname'⟩ := find_name hn
      exact hmembers m hmem n hmem' (hname.trans hname'.symm)

theorem str_same {v w : JsValue} (h : v = w ∨ Same v w) : str? v = str? w := by
  obtain rfl | h := h
  · rfl
  · cases h <;> rfl

theorem nullable_same {v w : JsValue} (h : v = w ∨ Same v w) : nullable? v = nullable? w := by
  obtain rfl | h := h
  · rfl
  · cases h <;> rfl

theorem record_same {v w : JsValue} (h : v = w ∨ Same v w) :
    record v = record w ∨ ∃ ms ns, record v = some ms ∧ record w = some ns ∧ Same (.obj ms) (.obj ns) := by
  obtain rfl | h := h
  · exact .inl rfl
  · cases h with
    | @obj ms ns hnames hmembers => exact .inr ⟨ms, ns, rfl, rfl, .obj hnames hmembers⟩
    | null => exact .inl rfl
    | bool b => exact .inl rfl
    | num hde => exact .inl rfl
    | str s => exact .inl rfl
    | arr hlen hitems => exact .inl rfl

theorem readSpend_same {v w : JsValue} (h : v = w ∨ Same v w) : readSpend v = readSpend w := by
  unfold readSpend
  obtain heq | ⟨ms, ns, hms, hns, hsame⟩ := record_same h
  · rw [heq]
  · rw [hms, hns]
    simp only [Option.bind_eq_bind, Option.bind_some, str_same (field_same hsame _)]

theorem field_omit {name omitted : String} (hne : lit name ≠ lit omitted) :
    field (members.filter (fun m => m.1 ≠ lit omitted)) name = field members name := by
  rw [field, field, member?, member?, List.find?_filter]
  congr 3
  funext m
  by_cases hm : m.1 = lit name
  · simp [hm, hne]
  · simp [hm]

theorem shaped_obj (r : ShapedRecord) : ∃ top, r.value = .obj top ∧ record r.value = some top := by
  obtain ⟨top, htop, -, -, hkeys, -⟩ := shape_inv r.shape
  exact ⟨top, record_closed htop hkeys (by decide), htop⟩

variable {r r' : ShapedRecord}

theorem body_field_same {top top' : List (Str × JsValue)} (hr : r.value = .obj top) (hr' : r'.value = .obj top')
    (h : Same (authorityDelegationBody r.value) (authorityDelegationBody r'.value)) (name : String)
    (hid : lit name ≠ lit "delegation_id") (hsignature : lit name ≠ lit "signature") :
    field top name = field top' name ∨ Same (field top name) (field top' name) := by
  rw [hr, hr'] at h
  have hfield := field_same h name
  rwa [field_omit hsignature, field_omit hid, field_omit hsignature, field_omit hid] at hfield

theorem delegation_fields (r : ShapedRecord) {top : List (Str × JsValue)} (hr : r.value = .obj top) :
    nullable? (field top "parent_delegation_id") = some r.delegation.parentDelegationId ∧
      readAuthority (field top "authority") = some r.delegation.authority := by
  have hread := r.read_eq
  rw [hr] at hread
  simp only [readDelegation, record, Option.bind_eq_bind, Option.bind_some, Option.bind_eq_some_iff,
    Option.pure_def, Option.some.injEq] at hread
  obtain ⟨id, -, parent, hparent, issuer, -, subject, -, method, -, issued, -, authority, hauthority,
    signature, -, heq⟩ := hread
  rw [← heq]
  exact ⟨hparent, hauthority⟩

theorem parent_of_same (h : Same (authorityDelegationBody r.value) (authorityDelegationBody r'.value)) :
    r.delegation.parentDelegationId = r'.delegation.parentDelegationId := by
  obtain ⟨top, hr, -⟩ := shaped_obj r
  obtain ⟨top', hr', -⟩ := shaped_obj r'
  have hnullable := nullable_same
    (body_field_same hr hr' h "parent_delegation_id" (by decide) (by decide))
  rw [(delegation_fields r hr).1, (delegation_fields r' hr').1] at hnullable
  exact Option.some.inj hnullable

theorem spend_of_authority {v : JsValue} {a : AuthorityVector} (h : readAuthority v = some a) :
    ∃ members, record v = some members ∧ readSpend (field members "spend") = some a.spend := by
  simp only [readAuthority, Option.bind_eq_bind, Option.bind_eq_some_iff, Option.pure_def,
    Option.some.injEq] at h
  obtain ⟨members, hmembers, scope, -, spend, hspend, -, -, -, -, -, -, -, -, -, -, rfl⟩ := h
  exact ⟨members, hmembers, hspend⟩

theorem spend_of_same (h : Same (authorityDelegationBody r.value) (authorityDelegationBody r'.value)) :
    r.delegation.authority.spend = r'.delegation.authority.spend := by
  obtain ⟨top, hr, -⟩ := shaped_obj r
  obtain ⟨top', hr', -⟩ := shaped_obj r'
  have hauthority := body_field_same hr hr' h "authority" (by decide) (by decide)
  obtain ⟨ms, hms, hspend⟩ := spend_of_authority (delegation_fields r hr).2
  obtain ⟨ns, hns, hspend'⟩ := spend_of_authority (delegation_fields r' hr').2
  have hread : readSpend (field ms "spend") = readSpend (field ns "spend") := by
    obtain heq | ⟨ms', ns', hms', hns', hsame⟩ := record_same hauthority
    · rw [hms, hns] at heq
      cases heq
      rfl
    · rw [hms] at hms'
      rw [hns] at hns'
      cases hms'
      cases hns'
      exact readSpend_same (field_same hsame _)
  rw [hspend, hspend'] at hread
  exact Option.some.inj hread

end AgentPassport.DelegationJson
