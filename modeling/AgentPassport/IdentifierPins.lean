import AgentPassport.CanonicalInjective
import AgentPassport.IdentifierContinuity

/-! Controller pins as scope grants (`v2/capability-binding/identifier.ts`): written with colons between the parts,
read back by the text they start with, and when a grant for one identifier is read for another. -/
namespace AgentPassport.IdentifierPins
open JsText SeparatedText Outcome IdentifierContinuity
open DelegationScope (startsWith startsWith_iff)
open CanonicalInjective (forall₂_mem)

def identifierControllerPinScopeGrant (kind identifier controller : Str) : Except ContinuityError Str := do
  assertSegment (lit "controller") controller
  let dependency ← identifierDependencyScopeGrant kind identifier
  return dependency ++ lit ":controller:" ++ controller

/-- A call of one of the two builders; the dependency grant names no controller. -/
structure Build where
  kind : Str
  identifier : Str
  controller : Option Str

def Build.grant (b : Build) : Except ContinuityError Str :=
  match b.controller with
  | none => identifierDependencyScopeGrant b.kind b.identifier
  | some controller => identifierControllerPinScopeGrant b.kind b.identifier controller

/-- The identifier, with the pin when there is one. -/
def Build.target (b : Build) : Str :=
  match b.controller with
  | none => b.identifier
  | some controller => b.identifier ++ lit ":controller:" ++ controller

def Build.IsFor (b : Build) (kind identifier : Str) : Prop := b.kind = kind ∧ b.identifier = identifier

/-- The pins of one identifier are those written for it, once each, and no other grant gives one. -/
structure ReadsBack (builds : List Build) (grants : List Str) (kind identifier : Str) : Prop where
  exact : ∃ pins, parseIdentifierControllerPins grants kind identifier = .ok pins ∧ pins.Nodup ∧
    ∀ controller, controller ∈ pins ↔
      ∃ grant ∈ grants, identifierControllerPinScopeGrant kind identifier controller = .ok grant
  own : ∀ b ∈ builds, ¬ b.IsFor kind identifier → ∀ grant, b.grant = .ok grant →
    parseIdentifierControllerPins [grant] kind identifier = .ok []

/-- `text` starts with `start` and has more after it. -/
def goesOn (text start : Str) : Bool := startsWith text start && start.length < text.length

/-- How the parts of a grant for another identifier can line up with the ones asked about: the kinds are the same and
the identifiers overlap, or the kind of one ends at a colon inside the kind of the other. -/
inductive Overlaps (kind identifier : Str) (b : Build) : Prop
  | identifiers (hkind : b.kind = kind) (hother : b.identifier ≠ identifier)
      (hon : goesOn b.target (identifier ++ lit ":controller:") = true)
  | longerKind (part : Str) (hkind : b.kind = kind ++ 0x3A :: part)
      (hon : goesOn (part ++ 0x3A :: b.target) (identifier ++ lit ":controller:") = true)
  | shorterKind (part : Str) (hkind : kind = b.kind ++ 0x3A :: part)
      (hon : goesOn b.target (part ++ 0x3A :: (identifier ++ lit ":controller:")) = true)

theorem goesOn_iff (text start : Str) : goesOn text start = true ↔ ∃ rest, rest ≠ [] ∧ text = start ++ rest := by
  rw [goesOn, Bool.and_eq_true, startsWith_iff, decide_eq_true_eq]
  constructor
  · rintro ⟨⟨rest, rfl⟩, hlength⟩
    refine ⟨rest, ?_, rfl⟩
    rintro rfl
    rw [List.append_nil] at hlength
    exact lt_irrefl _ hlength
  · rintro ⟨rest, hne, rfl⟩
    refine ⟨⟨rest, rfl⟩, ?_⟩
    rw [List.length_append]
    exact Nat.lt_add_of_pos_right (List.length_pos_iff.mpr hne)

theorem assertSegment_ok (label value : Str) : assertSegment label value = .ok () ↔ value ≠ [] := by
  cases value with
  | nil =>
    rw [assertSegment, if_pos List.length_nil]
    exact ⟨nofun, fun h => absurd rfl h⟩
  | cons c rest =>
    rw [assertSegment, if_neg (by simp)]
    exact ⟨fun _ => List.cons_ne_nil c rest, fun _ => rfl⟩

theorem dependency_ok (kind identifier grant : Str) :
    identifierDependencyScopeGrant kind identifier = .ok grant ↔
      kind ≠ [] ∧ identifier ≠ [] ∧ dependencyGrant kind identifier = grant := by
  rw [identifierDependencyScopeGrant, bind_eq_ok]
  constructor
  · rintro ⟨_, hkind, h⟩
    obtain ⟨_, hidentifier, h⟩ := bind_eq_ok.mp h
    exact ⟨(assertSegment_ok _ _).mp hkind, (assertSegment_ok _ _).mp hidentifier, Except.ok.inj h⟩
  · rintro ⟨hkind, hidentifier, rfl⟩
    exact ⟨(), (assertSegment_ok _ _).mpr hkind, bind_eq_ok.mpr ⟨(), (assertSegment_ok _ _).mpr hidentifier, rfl⟩⟩

theorem pin_ok (kind identifier controller grant : Str) :
    identifierControllerPinScopeGrant kind identifier controller = .ok grant ↔
      controller ≠ [] ∧ kind ≠ [] ∧ identifier ≠ [] ∧
        dependencyGrant kind identifier ++ lit ":controller:" ++ controller = grant := by
  rw [identifierControllerPinScopeGrant, bind_eq_ok]
  constructor
  · rintro ⟨_, hcontroller, h⟩
    obtain ⟨dependency, hdependency, h⟩ := bind_eq_ok.mp h
    obtain ⟨hkind, hidentifier, rfl⟩ := (dependency_ok _ _ _).mp hdependency
    exact ⟨(assertSegment_ok _ _).mp hcontroller, hkind, hidentifier, Except.ok.inj h⟩
  · rintro ⟨hcontroller, hkind, hidentifier, rfl⟩
    exact ⟨(), (assertSegment_ok _ _).mpr hcontroller,
      bind_eq_ok.mpr ⟨_, (dependency_ok _ _ _).mpr ⟨hkind, hidentifier, rfl⟩, rfl⟩⟩

variable {b : Build}

theorem grant_text {grant : Str} (h : b.grant = .ok grant) : grant = lit "extid:" ++ (b.kind ++ 0x3A :: b.target) := by
  have hcolon : lit ":" = [0x3A] := rfl
  obtain ⟨kind, identifier, controller⟩ := b
  cases controller with
  | none =>
    obtain ⟨_, _, rfl⟩ := (dependency_ok _ _ _).mp h
    simp only [dependencyGrant, hcolon, Build.target, List.append_assoc, List.cons_append, List.nil_append]
  | some controller =>
    obtain ⟨_, _, _, rfl⟩ := (pin_ok _ _ _ _).mp h
    simp only [dependencyGrant, hcolon, Build.target, List.append_assoc, List.cons_append, List.nil_append]

theorem mem_pinsUnder (start : Str) (grants : List Str) (pin : Str) :
    pin ∈ pinsUnder start grants ↔ pin ≠ [] ∧ start ++ pin ∈ grants := by
  rw [pinsUnder, mem_distinct, List.mem_filter, List.mem_map]
  constructor
  · rintro ⟨⟨grant, hgrant, rfl⟩, hlength⟩
    obtain ⟨hmem, hstart⟩ := List.mem_filter.mp hgrant
    obtain ⟨rest, rfl⟩ := (startsWith_iff _ _).mp hstart
    rw [List.drop_left] at hlength ⊢
    exact ⟨List.length_pos_iff.mp (of_decide_eq_true hlength), hmem⟩
  · rintro ⟨hne, hmem⟩
    exact ⟨⟨_, List.mem_filter.mpr ⟨hmem, (startsWith_iff _ _).mpr ⟨pin, rfl⟩⟩, List.drop_left⟩,
      decide_eq_true (List.length_pos_iff.mpr hne)⟩

section
variable {kind identifier : Str} (hkind : kind ≠ []) (hidentifier : identifier ≠ [])
include hkind hidentifier

theorem parse_ok (grants : List Str) : parseIdentifierControllerPins grants kind identifier =
    .ok (pinsUnder (dependencyGrant kind identifier ++ lit ":controller:") grants) := by
  rw [parseIdentifierControllerPins, (dependency_ok _ _ _).mpr ⟨hkind, hidentifier, rfl⟩]
  rfl

theorem pins_exact (grants : List Str) : ∃ pins,
    parseIdentifierControllerPins grants kind identifier = .ok pins ∧ pins.Nodup ∧
      ∀ controller, controller ∈ pins ↔
        ∃ grant ∈ grants, identifierControllerPinScopeGrant kind identifier controller = .ok grant := by
  refine ⟨_, parse_ok hkind hidentifier grants, nodup_distinct _, fun controller => ?_⟩
  rw [mem_pinsUnder]
  constructor
  · rintro ⟨hne, hmem⟩
    exact ⟨_, hmem, (pin_ok _ _ _ _).mpr ⟨hne, hkind, hidentifier, rfl⟩⟩
  · rintro ⟨grant, hmem, hgrant⟩
    obtain ⟨hne, _, _, rfl⟩ := (pin_ok _ _ _ _).mp hgrant
    exact ⟨hne, hmem⟩

theorem pinned_iff {grant : Str} (h : b.grant = .ok grant) :
    parseIdentifierControllerPins [grant] kind identifier ≠ .ok [] ↔ ∃ pin, pin ≠ [] ∧
      b.kind ++ 0x3A :: b.target = kind ++ 0x3A :: (identifier ++ lit ":controller:" ++ pin) := by
  have hcolon : lit ":" = [0x3A] := rfl
  rw [parse_ok hkind hidentifier, ne_eq, Except.ok.injEq, List.eq_nil_iff_forall_not_mem, not_forall_not]
  refine exists_congr fun pin => ?_
  rw [mem_pinsUnder, List.mem_singleton, grant_text h, eq_comm (a := _ ++ pin), dependencyGrant, hcolon]
  simp only [List.append_assoc, List.cons_append, List.nil_append, List.append_cancel_left_eq]

end

theorem overlaps_iff {kind identifier : Str} (hother : ¬ b.IsFor kind identifier) :
    Overlaps kind identifier b ↔ ∃ pin, pin ≠ [] ∧
      b.kind ++ 0x3A :: b.target = kind ++ 0x3A :: (identifier ++ lit ":controller:" ++ pin) := by
  constructor
  · rintro (⟨hkind, _, hon⟩ | ⟨part, hkind, hon⟩ | ⟨part, hkind, hon⟩)
    · obtain ⟨pin, hne, htext⟩ := (goesOn_iff _ _).mp hon
      exact ⟨pin, hne, (mark_split_iff _ _ _ _ _).mpr (.inl ⟨hkind, htext⟩)⟩
    · obtain ⟨pin, hne, htext⟩ := (goesOn_iff _ _).mp hon
      exact ⟨pin, hne, (mark_split_iff _ _ _ _ _).mpr (.inr (.inl ⟨part, hkind, htext⟩))⟩
    · obtain ⟨pin, hne, htext⟩ := (goesOn_iff _ _).mp hon
      refine ⟨pin, hne, (mark_split_iff _ _ _ _ _).mpr (.inr (.inr ⟨part, hkind, ?_⟩))⟩
      rw [htext, List.append_assoc, List.cons_append]
  · rintro ⟨pin, hne, htext⟩
    obtain ⟨hkind, htarget⟩ | ⟨part, hkind, htarget⟩ | ⟨part, hkind, htarget⟩ := (mark_split_iff _ _ _ _ _).mp htext
    · exact .identifiers hkind (fun h => hother ⟨hkind, h⟩) ((goesOn_iff _ _).mpr ⟨pin, hne, htarget⟩)
    · exact .longerKind part hkind ((goesOn_iff _ _).mpr ⟨pin, hne, htarget⟩)
    · refine .shorterKind part hkind ((goesOn_iff _ _).mpr ⟨pin, hne, ?_⟩)
      simp only [htarget, List.append_assoc, List.cons_append]

/-- The pins are read back exactly when no grant for another identifier lines up with the one asked about. -/
theorem reads_back_iff {builds : List Build} {grants : List Str} {kind identifier : Str} (hkind : kind ≠ [])
    (hidentifier : identifier ≠ []) (hbuilt : builds.mapM Build.grant = .ok grants) :
    ReadsBack builds grants kind identifier ↔
      ∀ b ∈ builds, ¬ b.IsFor kind identifier → ¬ Overlaps kind identifier b := by
  constructor
  · intro h b hb hother hoverlaps
    obtain ⟨grant, _, hgrant⟩ := forall₂_mem (mapM_forall₂.mp hbuilt) hb
    exact (pinned_iff hkind hidentifier hgrant).mpr ((overlaps_iff hother).mp hoverlaps) (h.own b hb hother grant hgrant)
  · intro h
    refine ⟨pins_exact hkind hidentifier grants, fun b hb hother grant hgrant => ?_⟩
    by_contra hpinned
    exact h b hb hother ((overlaps_iff hother).mpr ((pinned_iff hkind hidentifier hgrant).mp hpinned))

def sampleBuild : Build := ⟨lit "package", lit "npm:acme", some (lit "did:aps:one")⟩

def sampleGrant : Str := lit "extid:package:npm:acme:controller:did:aps:one"

theorem sample_built : [sampleBuild].mapM Build.grant = .ok [sampleGrant] := rfl

/-- Asked about `acme` of the kind `package:npm`, the pin of `npm:acme` of the kind `package` is read. -/
theorem foreign_pin_read :
    [sampleBuild].mapM Build.grant = .ok [sampleGrant] ∧
      parseIdentifierControllerPins [sampleGrant] (lit "package:npm") (lit "acme") = .ok [lit "did:aps:one"] ∧
      ¬ ReadsBack [sampleBuild] [sampleGrant] (lit "package:npm") (lit "acme") := by
  have hread : parseIdentifierControllerPins [sampleGrant] (lit "package:npm") (lit "acme") =
      .ok [lit "did:aps:one"] := rfl
  refine ⟨sample_built, hread, fun h => ?_⟩
  have hown := h.own sampleBuild List.mem_cons_self (fun hfor => absurd hfor.1 (by decide)) sampleGrant rfl
  rw [hread] at hown
  exact List.cons_ne_nil _ _ (Except.ok.inj hown)

/-- A pin and the dependency grant of the identifier, and a pin of another identifier of its kind. -/
def sampleBuilds : List Build :=
  [sampleBuild, ⟨lit "package", lit "npm:acme", none⟩, ⟨lit "package", lit "npm:other", some (lit "did:aps:two")⟩]

def sampleGrants : List Str :=
  [sampleGrant, lit "extid:package:npm:acme", lit "extid:package:npm:other:controller:did:aps:two"]

theorem reads_back_sample : sampleBuilds.mapM Build.grant = .ok sampleGrants ∧
    parseIdentifierControllerPins sampleGrants (lit "package") (lit "npm:acme") = .ok [lit "did:aps:one"] ∧
    ReadsBack sampleBuilds sampleGrants (lit "package") (lit "npm:acme") := by
  have hbuilt : sampleBuilds.mapM Build.grant = .ok sampleGrants := rfl
  refine ⟨hbuilt, rfl, (reads_back_iff (by decide) (by decide) hbuilt).mpr ?_⟩
  intro b hb hforeign hoverlaps
  have hown : ∀ controller, Build.IsFor ⟨lit "package", lit "npm:acme", controller⟩ (lit "package") (lit "npm:acme") :=
    fun _ => ⟨rfl, rfl⟩
  simp only [sampleBuilds, List.mem_cons, List.not_mem_nil, or_false] at hb
  obtain rfl | rfl | rfl := hb
  · exact hforeign (hown _)
  · exact hforeign (hown _)
  · -- both kinds are `package`, and the other identifier does not begin with this one
    cases hoverlaps with
    | identifiers _ _ hon => exact absurd hon (by decide)
    | longerKind part hkind _ => exact absurd (congrArg List.length hkind) (by rw [List.length_append]; simp)
    | shorterKind part hkind _ => exact absurd (congrArg List.length hkind) (by rw [List.length_append]; simp)

end AgentPassport.IdentifierPins
