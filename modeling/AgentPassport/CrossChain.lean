import AgentPassport.LegacyDelegation
import AgentPassport.Sha256
import AgentPassport.TextValues

/-! Data flow between delegation chains (`core/cross-chain.ts`): taint labels and their sets, the
execution frame with its hash chain and its epochs, permits, the gate and derived objects. -/
namespace AgentPassport.CrossChain
open JsText Js LegacyCanonical Rfc3339 Sha256 Utf8 TextValues
open LegacyDelegation (toISOString)

/-- The text of a finite number, SHA-256 and Ed25519; signing fails on a malformed key. -/
structure Runtime where
  numText : Double → Str
  sha256 : Hash
  sign : Str → Str → Option Str
  verify : Str → Str → Str → Bool

inductive TaintUsage where
  | unrestricted | sameContextOnly | exportWithPermit | readOnly
  deriving DecidableEq

def TaintUsage.text : TaintUsage → Str
  | .unrestricted => lit "unrestricted"
  | .sameContextOnly => lit "same-context-only"
  | .exportWithPermit => lit "export-with-permit"
  | .readOnly => lit "read-only"

/-- `ref` tells two objects with the same fields apart. -/
structure TaintLabel where
  ref : Nat
  principalId : Str
  chainId : Str
  delegationId : Str
  usage : TaintUsage
  taintedAt : Str
  sourcePrincipals : Option (List Str)
  deriving DecidableEq

structure TaintSet where
  labels : List TaintLabel
  principals : List Str
  isCrossChain : Bool
  deriving DecidableEq

/-- `new Set` keeps the first occurrence of each label object and of each principal. -/
def mergeTaints (labels : List TaintLabel) : TaintSet :=
  let uniqueLabels := labels.eraseDups
  let principals := (uniqueLabels.map (·.principalId)).eraseDups
  ⟨uniqueLabels, principals, decide (1 < principals.length)⟩

def labelValue (label : TaintLabel) : JsValue := .obj [
  (lit "principalId", .str label.principalId), (lit "chainId", .str label.chainId),
  (lit "delegationId", .str label.delegationId), (lit "usage", .str label.usage.text),
  (lit "taintedAt", .str label.taintedAt),
  (lit "sourcePrincipals",
    match label.sourcePrincipals with
    | some principals => .arr (principals.map .str)
    | none => .undefined)]

structure ExecutionFrame where
  frameId : Str
  agentId : Str
  accessedContexts : List TaintLabel
  frameTaint : TaintSet
  startedAt : Str
  active : Bool
  chainHead : Option Str
  stepCount : Nat
  epoch : JsNumber
  ttlMinutes : JsNumber
  sealedAt : Option Str
  previousFrameChainHead : Option Str
  residuePrincipals : List Str

structure FrameOptions where
  ttlMinutes : Option JsNumber
  epoch : Option JsNumber
  previousFrameChainHead : Option Str
  residuePrincipals : Option (List Str)

def createExecutionFrame (frameId now agentId : Str) (opts : FrameOptions) : ExecutionFrame where
  frameId
  agentId
  accessedContexts := []
  frameTaint := ⟨[], [], false⟩
  startedAt := now
  active := true
  chainHead := some []
  stepCount := 0
  epoch := opts.epoch.getD (zeroOf false)
  ttlMinutes := opts.ttlMinutes.getD (zeroOf false)
  sealedAt := none
  previousFrameChainHead := opts.previousFrameChainHead
  residuePrincipals := opts.residuePrincipals.getD []

inductive FrameError where
  | closed (frameId : Str)
  | canonical (e : LegacyError)
  deriving DecidableEq

section
variable (R : Runtime)

/-- The text to hash when it is there; a label and a permit are always written. -/
def writtenText (text : Except LegacyError (Option Str)) : Except FrameError Str :=
  match text with
  | .ok text => return text.getD []
  | .error e => throw (.canonical e)

def stepInput (previousStepHash taint : Str) (stepIndex : Nat) : List UInt8 :=
  utf8 previousStepHash ++ utf8 taint ++ utf8 (decimal stepIndex)

def computeStepHash (previousStepHash : Str) (taint : TaintLabel) (stepIndex : Nat) : Except FrameError Str := do
  let text ← writtenText (canonicalize R.numText (labelValue taint))
  return hex (R.sha256 (stepInput previousStepHash text stepIndex))

def computeStepHashForWrite (previousStepHash : Str) (taint : TaintLabel) (stepIndex : Nat) :
    Except FrameError Str := do
  let text ← writtenText (canonicalizeForWrite R.numText (lit "$") (labelValue taint))
  return hex (R.sha256 (stepInput previousStepHash text stepIndex))

def recordAccess (frame : ExecutionFrame) (taint : TaintLabel) : Except FrameError ExecutionFrame := do
  if !frame.active then throw (.closed frame.frameId)
  let stepHash ← computeStepHashForWrite R (frame.chainHead.getD []) taint frame.stepCount
  let accessedContexts := frame.accessedContexts ++ [taint]
  return { frame with
    accessedContexts
    frameTaint := mergeTaints accessedContexts
    chainHead := some stepHash
    stepCount := frame.stepCount + 1 }

def closeFrame (now : Str) (frame : ExecutionFrame) : ExecutionFrame :=
  { frame with active := false, sealedAt := some now }

/-- `head || undefined`. -/
def headOrUndefined (head : Option Str) : Option Str := head.filter (· ≠ [])

def rotateFrame (frameId now : Str) (frame : ExecutionFrame) (ttlMinutes : Option JsNumber) :
    ExecutionFrame × ExecutionFrame :=
  let allPrincipals := (frame.frameTaint.principals ++ frame.residuePrincipals).eraseDups
  (closeFrame now frame, createExecutionFrame frameId now frame.agentId {
    ttlMinutes := some (ttlMinutes.getD frame.ttlMinutes)
    epoch := some (frame.epoch.add (.finite .one))
    previousFrameChainHead := headOrUndefined frame.chainHead
    residuePrincipals := some allPrincipals })

/-- The hash after the accesses from position `i` on. -/
def replay (i : Nat) (currentHash : Str) : List TaintLabel → Except FrameError Str
  | [] => return currentHash
  | taint :: rest => do
    let expectedHash ← computeStepHash R currentHash taint i
    replay (i + 1) expectedHash rest

structure ChainCheck where
  valid : Bool
  error : Option Str
  deriving DecidableEq

def textOrUndefined (text : Option Str) : Str := text.getD (lit "undefined")

def verifyFrameChain (frame : ExecutionFrame) : Except FrameError ChainCheck := do
  let currentHash ← replay R 0 [] frame.accessedContexts
  if currentHash ≠ frame.chainHead.getD [] then
    return ⟨false, some (lit "Chain head mismatch at step " ++ decimal frame.accessedContexts.length ++
      lit ": expected " ++ currentHash ++ lit ", got " ++ textOrUndefined frame.chainHead)⟩
  else if frame.stepCount ≠ frame.accessedContexts.length then
    return ⟨false, some (lit "Step count mismatch: declared " ++ decimal frame.stepCount ++ lit ", actual " ++
      decimal frame.accessedContexts.length)⟩
  else return ⟨true, none⟩

def Runtime.text : JsNumber → Str := JsNumber.text R.numText

/-- `a` does not go after `b` in the sort by `a.epoch - b.epoch`; NaN counts as a tie. -/
def notAfter (a b : ExecutionFrame) : Bool := !(zeroOf false).lt (a.epoch.sub b.epoch)

def internalInvalid (frame : ExecutionFrame) (check : ChainCheck) : ChainCheck :=
  ⟨false, some (lit "Frame epoch " ++ R.text frame.epoch ++ lit " internal chain invalid: " ++
    textOrUndefined check.error)⟩

/-- The loop over neighbours, from the frame `prev` on, and the check of the last one. -/
def verifyLinks (prev : ExecutionFrame) : List ExecutionFrame → Except FrameError ChainCheck
  | [] => do
    let lastCheck ← verifyFrameChain R prev
    if !lastCheck.valid then return internalInvalid R prev lastCheck
    else return ⟨true, none⟩
  | curr :: rest => do
    if !curr.epoch.eq (prev.epoch.add (.finite .one)) then
      return ⟨false, some (lit "Epoch gap: expected " ++ R.text (prev.epoch.add (.finite .one)) ++ lit ", got " ++
        R.text curr.epoch)⟩
    else if curr.previousFrameChainHead.getD [] ≠ prev.chainHead.getD [] then
      return ⟨false, some (lit "Epoch " ++ R.text curr.epoch ++ lit " link mismatch: expected chainHead \"" ++
        textOrUndefined prev.chainHead ++ lit "\", got previousFrameChainHead \"" ++
        textOrUndefined curr.previousFrameChainHead ++ lit "\"")⟩
    else
      let internalCheck ← verifyFrameChain R prev
      if !internalCheck.valid then return internalInvalid R prev internalCheck
      else verifyLinks curr rest

def verifyEpochChain (frames : List ExecutionFrame) : Except FrameError ChainCheck :=
  match frames.insertionSort (fun a b => notAfter a b = true) with
  | [] => return ⟨true, none⟩
  | first :: rest => verifyLinks R first rest

end

structure SourceContext where
  principalId : Str
  principalPublicKey : Str
  dataClasses : List Str

structure DestinationContext where
  principalId : Str
  principalPublicKey : Str
  allowedScopes : List Str

structure CrossChainPermit where
  permitId : Str
  sourceContext : SourceContext
  destinationContext : DestinationContext
  purpose : Str
  destinationConstraints : Option (List Str)
  createdAt : Str
  expiresAt : Str
  revoked : Bool
  sourceSignature : Str
  destinationSignature : Str

def strings (items : List Str) : JsValue := .arr (items.map .str)

def permitBody (permit : CrossChainPermit) : JsValue := .obj [
  (lit "sourceContext", .obj [
    (lit "principalId", .str permit.sourceContext.principalId),
    (lit "principalPublicKey", .str permit.sourceContext.principalPublicKey),
    (lit "dataClasses", strings permit.sourceContext.dataClasses)]),
  (lit "destinationContext", .obj [
    (lit "principalId", .str permit.destinationContext.principalId),
    (lit "principalPublicKey", .str permit.destinationContext.principalPublicKey),
    (lit "allowedScopes", strings permit.destinationContext.allowedScopes)]),
  (lit "purpose", .str permit.purpose),
  (lit "destinationConstraints", (permit.destinationConstraints.map strings).getD .undefined),
  (lit "createdAt", .str permit.createdAt),
  (lit "expiresAt", .str permit.expiresAt)]

/-- An expiry that cannot be read never selects a permit. -/
def permitUnexpired (now : Int) (permit : CrossChainPermit) : Bool :=
  match parseRfc3339 (.str permit.expiresAt) with
  | .ok ms => now < ms
  | .error _ => false

section
variable (R : Runtime)

/-- What both principals sign. The canonicalizer throws on no permit, it holds only strings. -/
def permitPayload (permit : CrossChainPermit) : Str :=
  match canonicalize R.numText (permitBody permit) with
  | .ok text => text.getD []
  | .error _ => []

def verifyCrossChainPermit (now : Int) (permit : CrossChainPermit) : Bool :=
  if permit.revoked then false
  else
    match parseRfc3339 (.str permit.expiresAt) with
    | .error _ => false
    | .ok ms =>
      if ms < now then false
      else if permit.destinationSignature = [] then false
      else
        R.verify (permitPayload R permit) permit.sourceSignature permit.sourceContext.principalPublicKey &&
          R.verify (permitPayload R permit) permit.destinationSignature permit.destinationContext.principalPublicKey

/-- `join(', ')`. -/
def joinComma (names : List Str) : Str := List.intercalate (lit ", ") names

inductive FlowVerdict where
  | allowed | blocked | permitted
  deriving DecidableEq

structure FlowCheckResult where
  verdict : FlowVerdict
  blockingLabels : Option (List TaintLabel)
  permitId : Option Str
  reason : Str
  taintSet : TaintSet
  checkedAt : Str
  deriving DecidableEq

structure FlowRequest where
  inputTaint : TaintSet
  actionPrincipalId : Str
  actionScope : Str
  permits : List CrossChainPermit
  frame : Option ExecutionFrame

def coversScope (actionScope s : Str) : Bool :=
  s = lit "*" || s = actionScope || (s ++ lit ":").isPrefixOf actionScope

/-- A foreign label stands for the principals it lists, when it lists any. -/
def foreignSources (actionPrincipalId : Str) (label : TaintLabel) : List Str :=
  match label.sourcePrincipals with
  | some (source :: rest) => (source :: rest).filter (· ≠ actionPrincipalId)
  | _ => [label.principalId]

def permitBetween (now : Int) (foreignPrincipal actionPrincipalId : Str) (p : CrossChainPermit) : Bool :=
  !p.revoked && permitUnexpired now p && p.sourceContext.principalId = foreignPrincipal &&
    p.destinationContext.principalId = actionPrincipalId

def selectsPermit (now : Int) (opts : FlowRequest) (foreignPrincipal : Str) (p : CrossChainPermit) : Bool :=
  permitBetween now foreignPrincipal opts.actionPrincipalId p &&
    p.destinationContext.allowedScopes.any (coversScope opts.actionScope) && verifyCrossChainPermit R now p

def checkDataFlow (now : Int) (opts : FlowRequest) : FlowCheckResult :=
  let effectiveTaint : TaintSet :=
    match opts.frame with
    | some frame => mergeTaints (opts.inputTaint.labels ++ frame.frameTaint.labels)
    | none => opts.inputTaint
  match effectiveTaint.labels.filter (·.usage = .readOnly) with
  | first :: rest => {
      verdict := .blocked
      blockingLabels := some (first :: rest)
      permitId := none
      reason := lit "Data from " ++ first.principalId ++
        lit " is marked read-only and cannot be used in outbound actions."
      taintSet := effectiveTaint
      checkedAt := toISOString now }
  | [] =>
    let foreignLabels := effectiveTaint.labels.filter (·.principalId ≠ opts.actionPrincipalId)
    if foreignLabels = [] then {
      verdict := .allowed
      blockingLabels := none
      permitId := none
      reason := lit "All input data originates from the same principal as the action authorization."
      taintSet := effectiveTaint
      checkedAt := toISOString now }
    else
      let foreignPrincipals := (foreignLabels.flatMap (foreignSources opts.actionPrincipalId)).eraseDups
      -- the loop stops at the first principal without a permit
      match foreignPrincipals.find? (fun q => !opts.permits.any (selectsPermit R now opts q)) with
      | some foreignPrincipal => {
          verdict := .blocked
          blockingLabels := some (foreignLabels.filter (·.principalId = foreignPrincipal))
          permitId := none
          reason := lit "Data from principal \"" ++ foreignPrincipal ++ lit "\" cannot flow into action scope \"" ++
            opts.actionScope ++ lit "\" authorized by principal \"" ++ opts.actionPrincipalId ++
            lit "\". No valid CrossChainPermit found. Both principals must sign a permit to authorize this flow."
          taintSet := effectiveTaint
          checkedAt := toISOString now }
      | none => {
          verdict := .permitted
          blockingLabels := none
          permitId := (foreignPrincipals.head?.bind (fun q =>
            opts.permits.find? (permitBetween now q opts.actionPrincipalId))).map (·.permitId)
          reason := lit "Cross-chain flow authorized by permit. Data from " ++ joinComma foreignPrincipals ++
            lit " may flow into actions by " ++ opts.actionPrincipalId ++ lit "."
          taintSet := effectiveTaint
          checkedAt := toISOString now }

structure SignedAuthorityObject where
  saoId : Str
  data : Str
  taint : TaintLabel
  dataHash : Str
  monitorSignature : Str
  monitorPublicKey : Str
  createdAt : Str
  expiresAt : Str
  deriving DecidableEq

inductive DeriveError where
  | noSource
  | canonical (e : LegacyError)
  | key
  | notRepresentable
  deriving DecidableEq

def MULTI_PRINCIPAL : Str := lit "MULTI_PRINCIPAL"

/-- The loop over the sources; none at one whose expiry cannot be read. -/
def readExpiries (earliestExpiry : JsNumber) : List SignedAuthorityObject → Option JsNumber
  | [] => some earliestExpiry
  | s :: rest =>
    match parseRfc3339 (.str s.expiresAt) with
    | .error _ => none
    | .ok ms => readExpiries (if (JsNumber.ofInt ms).lt earliestExpiry then .ofInt ms else earliestExpiry) rest

/-- `Math.min`; the two zeros are not told apart. -/
def jsMin : JsNumber → JsNumber → JsNumber
  | .nan, _ => .nan
  | _, .nan => .nan
  | a, b => if b.lt a then b else a

def derivedExpiry (now : Int) (expiresInMinutes : JsNumber) (sourceSAOs : List SignedAuthorityObject) : JsNumber :=
  match readExpiries (.infinite false) sourceSAOs with
  | none => .ofInt (now - 1)
  | some earliestExpiry => jsMin earliestExpiry ((JsNumber.ofInt now).add (expiresInMinutes.mulNat 60000))

/-- `formatRfc3339` on a number. -/
def formatNumber : JsNumber → Except DeriveError Str
  | .finite d =>
    match formatRfc3339 d.trunc with
    | .ok text => return text
    | .error _ => throw .notRepresentable
  | _ => throw .notRepresentable

/-- What a call draws: the object of its label, an id and the time. -/
structure Draw where
  ref : Nat
  saoId : Str
  now : Int

def derivedLabel (draw : Draw) (primaryLabel : TaintLabel) (sourceSAOs : List SignedAuthorityObject) : TaintLabel :=
  let mergedTaint := mergeTaints (sourceSAOs.map (·.taint))
  let allPrincipalIds := (sourceSAOs.map (·.taint.principalId)).eraseDups
  { ref := draw.ref
    principalId := if mergedTaint.isCrossChain then MULTI_PRINCIPAL else primaryLabel.principalId
    chainId := primaryLabel.chainId
    delegationId := primaryLabel.delegationId
    usage := if mergedTaint.isCrossChain then .exportWithPermit else primaryLabel.usage
    taintedAt := toISOString draw.now
    sourcePrincipals := if mergedTaint.isCrossChain then some allPrincipalIds else none }

def payloadText : Except LegacyError (Option Str) → Except DeriveError Str
  | .ok text => return text.getD []
  | .error e => throw (.canonical e)

def orKeyError : Option Str → Except DeriveError Str
  | some signature => return signature
  | none => throw .key

/-- `data` is the text that is hashed: the data itself or its JSON. -/
def deriveSAO (draw : Draw) (data : Str) (sourceSAOs : List SignedAuthorityObject)
    (monitorPrivateKey monitorPublicKey : Str) (expiresInMinutes : JsNumber) :
    Except DeriveError SignedAuthorityObject :=
  match sourceSAOs with
  | [] => throw .noSource
  | primary :: _ => do
    let taint := derivedLabel draw primary.taint sourceSAOs
    let dataHash := hex (R.sha256 (utf8 data))
    let payload ← payloadText (canonicalizeForWrite R.numText (lit "$") (.obj [
      (lit "dataHash", .str dataHash), (lit "taint", labelValue taint),
      (lit "monitorPublicKey", .str monitorPublicKey), (lit "createdAt", .str (toISOString draw.now))]))
    let monitorSignature ← orKeyError (R.sign payload monitorPrivateKey)
    let expiresAt ← formatNumber (derivedExpiry draw.now expiresInMinutes sourceSAOs)
    return {
      saoId := draw.saoId
      data
      taint
      dataHash
      monitorSignature
      monitorPublicKey
      createdAt := toISOString draw.now
      expiresAt }

end
theorem label_values (label : TaintLabel) : ∃ members, labelValue label = .obj members ∧ ∀ m ∈ members, TextValue m.2 := by
  refine ⟨_, rfl, ?_⟩
  have hsources : TextValue (match label.sourcePrincipals with
      | some principals => .arr (principals.map .str)
      | none => .undefined) := by
    cases label.sourcePrincipals with
    | none => exact .undefined
    | some principals => exact .strings principals
  simp only [List.forall_mem_cons, TextValue.str, hsources, true_and]
  exact fun m hm => absurd hm List.not_mem_nil

theorem label_written (numText : Double → Str) (label : TaintLabel) : ∃ inner, WellFormed inner ∧
    canonicalize numText (labelValue label) = .ok (some (lit "\x7b" ++ inner ++ lit "\x7d")) ∧
    ∀ path, canonicalizeForWrite numText path (labelValue label) =
      .ok (some (lit "\x7b" ++ inner ++ lit "\x7d")) := by
  obtain ⟨members, hmembers, hvalues⟩ := label_values label
  rw [hmembers]
  exact object_written numText hvalues

def effectiveLabels (opts : FlowRequest) : List TaintLabel :=
  match opts.frame with
  | some frame => (mergeTaints (opts.inputTaint.labels ++ frame.frameTaint.labels)).labels
  | none => opts.inputTaint.labels

theorem mem_mergeTaints {labels : List TaintLabel} {label : TaintLabel} :
    label ∈ (mergeTaints labels).labels ↔ label ∈ labels := List.mem_eraseDups

theorem mem_principals {labels : List TaintLabel} {q : Str} :
    q ∈ (mergeTaints labels).principals ↔ ∃ label ∈ labels, label.principalId = q := by
  rw [mergeTaints, List.mem_eraseDups, List.mem_map]
  exact exists_congr (fun label => and_congr_left' List.mem_eraseDups)

theorem mem_effectiveLabels {opts : FlowRequest} {frame : ExecutionFrame} (h : opts.frame = some frame)
    {label : TaintLabel} :
    label ∈ effectiveLabels opts ↔ label ∈ opts.inputTaint.labels ∨ label ∈ frame.frameTaint.labels := by
  rw [effectiveLabels, h, mem_mergeTaints, List.mem_append]

/-- Some permit lets the data of `q` flow into the action. -/
def Permitted (R : Runtime) (now : Int) (opts : FlowRequest) (q : Str) : Prop :=
  ∃ permit ∈ opts.permits, selectsPermit R now opts q permit = true

theorem blocked_iff {R : Runtime} {now : Int} {opts : FlowRequest} :
    (checkDataFlow R now opts).verdict = .blocked ↔
      (∃ label ∈ effectiveLabels opts, label.usage = .readOnly) ∨
      ∃ label ∈ effectiveLabels opts, label.principalId ≠ opts.actionPrincipalId ∧
        ∃ q ∈ foreignSources opts.actionPrincipalId label, ¬ Permitted R now opts q := by
  have heffective : (match opts.frame with
      | some frame => mergeTaints (opts.inputTaint.labels ++ frame.frameTaint.labels)
      | none => opts.inputTaint).labels = effectiveLabels opts := by
    rw [effectiveLabels]
    cases opts.frame <;> rfl
  have hforeign : ∀ label, label ∈ (effectiveLabels opts).filter (·.principalId ≠ opts.actionPrincipalId) ↔
      label ∈ effectiveLabels opts ∧ label.principalId ≠ opts.actionPrincipalId := by
    intro label
    rw [List.mem_filter, decide_eq_true_eq]
  unfold checkDataFlow
  simp only [heffective]
  cases hread : (effectiveLabels opts).filter (·.usage = .readOnly) with
  | cons first rest =>
    have hfirst : first ∈ (effectiveLabels opts).filter (·.usage = .readOnly) := hread ▸ List.mem_cons_self
    rw [List.mem_filter, decide_eq_true_eq] at hfirst
    exact iff_of_true rfl (.inl ⟨first, hfirst⟩)
  | nil =>
    have hnone : ¬ ∃ label ∈ effectiveLabels opts, label.usage = .readOnly := by
      rintro ⟨label, hlabel, husage⟩
      exact absurd (decide_eq_true husage) (List.filter_eq_nil_iff.mp hread label hlabel)
    rw [or_iff_right hnone]
    by_cases hnil : (effectiveLabels opts).filter (·.principalId ≠ opts.actionPrincipalId) = []
    · rw [if_pos hnil]
      refine iff_of_false (show FlowVerdict.allowed ≠ .blocked by decide) ?_
      rintro ⟨label, hlabel, hother, -⟩
      exact List.not_mem_nil (hnil ▸ (hforeign label).mpr ⟨hlabel, hother⟩)
    · rw [if_neg hnil]
      cases hfind : ((((effectiveLabels opts).filter (·.principalId ≠ opts.actionPrincipalId)).flatMap
          (foreignSources opts.actionPrincipalId)).eraseDups).find?
            (fun q => !opts.permits.any (selectsPermit R now opts q)) with
      | some q =>
        refine iff_of_true rfl ?_
        have hq := List.mem_of_find?_eq_some hfind
        obtain ⟨label, hlabel, hsource⟩ := List.mem_flatMap.mp (List.mem_eraseDups.mp hq)
        obtain ⟨hmem, hother⟩ := (hforeign label).mp hlabel
        refine ⟨label, hmem, hother, q, hsource, ?_⟩
        rintro ⟨permit, hpermit, hselects⟩
        have hany := List.find?_some hfind
        rw [List.any_eq_true.mpr ⟨permit, hpermit, hselects⟩] at hany
        cases hany
      | none =>
        refine iff_of_false (show FlowVerdict.permitted ≠ .blocked by decide) ?_
        rintro ⟨label, hlabel, hother, q, hsource, hpermit⟩
        have hmem := List.mem_flatMap.mpr ⟨label, (hforeign label).mpr ⟨hlabel, hother⟩, hsource⟩
        have hany := List.find?_eq_none.mp hfind q (List.mem_eraseDups.mpr hmem)
        rw [Bool.not_eq_true', Bool.not_eq_false] at hany
        exact hpermit (List.any_eq_true.mp hany)

/-- An unrevoked and unexpired permit from `q` to the acting principal, for the scope, with both signatures. -/
structure Authorizes (R : Runtime) (now : Int) (opts : FlowRequest) (q : Str) (permit : CrossChainPermit) : Prop where
  unrevoked : permit.revoked = false
  unexpired : ∃ ms, parseRfc3339 (.str permit.expiresAt) = .ok ms ∧ now < ms
  source : permit.sourceContext.principalId = q
  destination : permit.destinationContext.principalId = opts.actionPrincipalId
  scope : ∃ s ∈ permit.destinationContext.allowedScopes, coversScope opts.actionScope s = true
  sourceSigned : R.verify (permitPayload R permit) permit.sourceSignature permit.sourceContext.principalPublicKey = true
  countersigned : permit.destinationSignature ≠ [] ∧
    R.verify (permitPayload R permit) permit.destinationSignature permit.destinationContext.principalPublicKey = true

variable {permit : CrossChainPermit}

theorem verify_unexpired {R : Runtime} {now ms : Int} (hparse : parseRfc3339 (.str permit.expiresAt) = .ok ms)
    (hlater : now < ms) :
    verifyCrossChainPermit R now permit = true ↔ permit.revoked = false ∧ permit.destinationSignature ≠ [] ∧
      R.verify (permitPayload R permit) permit.sourceSignature permit.sourceContext.principalPublicKey = true ∧
      R.verify (permitPayload R permit) permit.destinationSignature
        permit.destinationContext.principalPublicKey = true := by
  have hms : ¬ ms < now := Int.not_lt.mpr (Int.le_of_lt hlater)
  rw [verifyCrossChainPermit, hparse]
  simp only [hms, if_false]
  by_cases hrevoked : permit.revoked = true
  · rw [if_pos hrevoked]
    exact iff_of_false Bool.false_ne_true (fun h => absurd hrevoked (ne_true_of_eq_false h.1))
  · rw [if_neg hrevoked, eq_false_of_ne_true hrevoked]
    by_cases hsigned : permit.destinationSignature = []
    · rw [if_pos hsigned]
      exact iff_of_false Bool.false_ne_true (fun h => h.2.1 hsigned)
    · rw [if_neg hsigned, Bool.and_eq_true]
      exact ⟨fun h => ⟨rfl, hsigned, h⟩, fun h => h.2.2⟩

theorem permitUnexpired_iff {now : Int} :
    permitUnexpired now permit = true ↔ ∃ ms, parseRfc3339 (.str permit.expiresAt) = .ok ms ∧ now < ms := by
  rw [permitUnexpired]
  cases hparse : parseRfc3339 (.str permit.expiresAt) with
  | error e => exact iff_of_false Bool.false_ne_true (fun ⟨ms, h, _⟩ => nomatch h)
  | ok ms =>
    constructor
    · intro h
      exact ⟨ms, rfl, of_decide_eq_true h⟩
    · rintro ⟨ms', h, hlater⟩
      cases h
      exact decide_eq_true hlater

theorem selectsPermit_iff {R : Runtime} {now : Int} {opts : FlowRequest} {q : Str} :
    selectsPermit R now opts q permit = true ↔ Authorizes R now opts q permit := by
  simp only [selectsPermit, permitBetween, Bool.and_eq_true, Bool.not_eq_true', decide_eq_true_eq, List.any_eq_true,
    permitUnexpired_iff]
  constructor
  · rintro ⟨⟨⟨⟨⟨hrevoked, ms, hparse, hlater⟩, hsource⟩, hdestination⟩, hscope⟩, hverify⟩
    obtain ⟨-, hsigned, hfirst, hsecond⟩ := (verify_unexpired hparse hlater).mp hverify
    exact ⟨hrevoked, ⟨ms, hparse, hlater⟩, hsource, hdestination, hscope, hfirst, hsigned, hsecond⟩
  · intro h
    obtain ⟨ms, hparse, hlater⟩ := h.unexpired
    have hverify := (verify_unexpired hparse hlater).mpr ⟨h.unrevoked, h.countersigned.1, h.sourceSigned, h.countersigned.2⟩
    exact ⟨⟨⟨⟨⟨h.unrevoked, ms, hparse, hlater⟩, h.source⟩, h.destination⟩, h.scope⟩, hverify⟩

end AgentPassport.CrossChain
