import AgentPassport.DelegationChain
import AgentPassport.PolicyBundleValid

/-! What a valid policy bundle says about the files in its archive. The archive comes from anyone, so that
its names need not be those `packTar` would accept. -/
namespace AgentPassport.PolicyBundleFiles
open JsText Js CanonicalJcs Sha256 TarArchive TarRoundTrip PolicyBundle PolicyBundleValid TextDecoder Outcome
open DelegationChain (rootKey)

variable {R : Runtime} {entries : List TarEntry} {pins : List PolicyBundleFileEntry}

/-- The archive holds the pinned files and no others, each under one name and with its digest. -/
structure HoldsPins (R : Runtime) (entries : List TarEntry) (pins : List PolicyBundleFileEntry) : Prop where
  names : (entries.map TarEntry.name).Nodup
  paths : ∀ path, path ∈ entries.map TarEntry.name ↔ path ∈ pins.map PolicyBundleFileEntry.path
  digests : ∀ entry ∈ entries, ∀ pin ∈ pins, pin.path = entry.name → sha256hex R entry.data = pin.sha256

theorem pinByPath_some {name : Str} {pin : PolicyBundleFileEntry} (h : pinByPath pins name = some pin) :
    pin ∈ pins ∧ pin.path = name := by
  rw [pinByPath] at h
  obtain ⟨hmem, hname⟩ := List.mem_filter.mp (List.mem_of_getLast? h)
  exact ⟨hmem, of_decide_eq_true hname⟩

theorem checkFile_eq_nil {entry : TarEntry} (h : checkFile R pins entry = []) :
    ∃ pin, pinByPath pins entry.name = some pin ∧ sha256hex R entry.data = pin.sha256 := by
  unfold checkFile at h
  cases hpin : pinByPath pins entry.name with
  | none =>
    rw [hpin] at h
    cases h
  | some pin =>
    rw [hpin] at h
    refine ⟨pin, rfl, ?_⟩
    by_contra hdigest
    have hreasons := (List.append_eq_nil_iff.mp h).2
    rw [if_neg hdigest] at hreasons
    cases hreasons

theorem verifyFileSet_true (h : (verifyFileSet R entries pins).1 = true) :
    entries.length = pins.length ∧
      ∀ entry ∈ entries, ∃ pin, pinByPath pins entry.name = some pin ∧ sha256hex R entry.data = pin.sha256 := by
  unfold verifyFileSet at h
  by_cases hlength : entries.length = pins.length
  · rw [if_neg (not_not.mpr hlength)] at h
    have hnone := List.flatMap_eq_nil_iff.mp (List.isEmpty_iff.mp h)
    exact ⟨hlength, fun entry hentry => checkFile_eq_nil (hnone entry hentry)⟩
  · rw [if_pos hlength] at h
    cases h

theorem names_perm_paths (hnames : (entries.map TarEntry.name).Nodup) (hlength : entries.length = pins.length)
    (hpinned : ∀ entry ∈ entries, ∃ pin ∈ pins, pin.path = entry.name) :
    (entries.map TarEntry.name).Perm (pins.map PolicyBundleFileEntry.path) := by
  have hsubset : entries.map TarEntry.name ⊆ pins.map PolicyBundleFileEntry.path := by
    intro name hname
    obtain ⟨entry, hentry, rfl⟩ := List.mem_map.mp hname
    obtain ⟨pin, hpin, hpath⟩ := hpinned entry hentry
    exact List.mem_map.mpr ⟨pin, hpin, hpath⟩
  refine (List.subperm_of_subset hnames hsubset).perm_of_length_le ?_
  rw [List.length_map, List.length_map, hlength]

theorem verifyFileSet_holds (h : (verifyFileSet R entries pins).1 = true)
    (hnames : (entries.map TarEntry.name).Nodup) : HoldsPins R entries pins := by
  obtain ⟨hlength, hlookup⟩ := verifyFileSet_true h
  have hpinned : ∀ entry ∈ entries, ∃ pin ∈ pins, pin.path = entry.name := by
    intro entry hentry
    obtain ⟨pin, hpin, -⟩ := hlookup entry hentry
    exact ⟨pin, pinByPath_some hpin⟩
  have hperm := names_perm_paths hnames hlength hpinned
  refine ⟨hnames, fun path => hperm.mem_iff, ?_⟩
  intro entry hentry pin hpin hpath
  obtain ⟨found, hfound, hdigest⟩ := hlookup entry hentry
  obtain ⟨hmem, hname⟩ := pinByPath_some hfound
  rw [List.inj_on_of_nodup_map (hperm.nodup_iff.mp hnames) hpin hmem (hpath.trans hname.symm), hdigest]

theorem verifyPolicyBundle_valid {envelope : PolicyBundleEnvelope} {options : VerifyPolicyBundleOptions}
    {result : PolicyBundleVerification} (h : verifyPolicyBundle R envelope options = .ok result) :
    ∃ canonical, canonicalizeJCS R.numText envelope.manifest.value = .ok canonical ∧
      result.valid = (R.verify canonical envelope.signature envelope.manifest.signerPublicKey &&
        isConsistent envelope.manifest && (checkTar R envelope options).tarHashMatches &&
        (checkTar R envelope options).fileHashesMatch && !isRevoked envelope.manifest options) := by
  rw [verifyPolicyBundle, bind_eq_ok] at h
  obtain ⟨canonical, hcanonical, h⟩ := h
  cases h
  exact ⟨canonical, rethrow_eq_ok.mp hcanonical, rfl⟩

theorem checkTar_files {envelope : PolicyBundleEnvelope} {options : VerifyPolicyBundleOptions}
    (h : (checkTar R envelope options).fileHashesMatch = true) :
    ∃ archive entries, readTar envelope options = .ok archive ∧ unpackTar archive = .ok entries ∧
      (verifyFileSet R entries envelope.manifest.files).1 = true := by
  unfold checkTar at h
  cases hread : readTar envelope options with
  | error e =>
    rw [hread] at h
    cases h
  | ok archive =>
    rw [hread] at h
    cases hunpack : unpackTar archive with
    | error e =>
      simp only [hunpack] at h
      cases h
    | ok entries =>
      simp only [hunpack] at h
      exact ⟨archive, entries, rfl, hunpack, h⟩

/-- A bundle that is reported valid was read from an archive, and the archive holds exactly the files its
manifest pins, each with the pinned digest, exactly when its names pass the check `packTar` makes before it
writes any. -/
theorem valid_bundle_holds_pins_iff (R : Runtime) (envelope : PolicyBundleEnvelope) (options : VerifyPolicyBundleOptions)
    (result : PolicyBundleVerification) (h : verifyPolicyBundle R envelope options = .ok result)
    (hvalid : result.valid = true) :
    ∃ archive entries, readTar envelope options = .ok archive ∧ unpackTar archive = .ok entries ∧
      (HoldsPins R entries envelope.manifest.files ↔ checkNames [] entries = .ok ()) := by
  obtain ⟨canonical, -, heq⟩ := verifyPolicyBundle_valid h
  rw [hvalid, eq_comm, Bool.and_eq_true, Bool.and_eq_true] at heq
  obtain ⟨archive, entries, hread, hunpack, hfiles⟩ := checkTar_files heq.1.2
  refine ⟨archive, entries, hread, hunpack, ?_⟩
  rw [checkNames_iff]
  constructor
  · intro hholds
    exact ⟨fun _ _ => List.not_mem_nil, hholds.names⟩
  · rintro ⟨-, hnames⟩
    exact verifyFileSet_holds hfiles hnames

def emptyDigest : Str :=
  ["e3b0c44298fc1c14", "9afbf4c8996fb924", "27ae41e4649b934c", "a495991b7852b855"].flatMap lit

def aliasedDigest : Str :=
  ["418c392143826dbb", "460f344c06084a24", "8db19379fc9479a9", "05b4d5c1b3eccdc4"].flatMap lit

def aliasedSignature : Str :=
  ["ccd2f3315cb261a9", "76a115b57e294e52", "569a49276caf331d", "8e0469c0eeb525bd", "353ba8db6ee810ab",
    "a0d9c725372b752d", "47da0e1c643904c2", "ae59eb3018e6c704"].flatMap lit

def pinnedDigest : Str :=
  ["89db5872fc64a253", "fa233bb55fc272e8", "5709e1552ef658bd", "b12abcc839d28ba2"].flatMap lit

def pinnedSignature : Str :=
  ["a917b35f415d1d9b", "8dfabb4f33632d70", "14e9c3fe1573e4c5", "1937142bb81c3e4d", "b68a782303fd285f",
    "f9ea619dec034f38", "04a7ba2667864743", "b366e0587986e00c"].flatMap lit

def aliasedEntries : List TarEntry := [⟨lit "a", []⟩, ⟨lit "a", []⟩]

def pinnedEntries : List TarEntry := [⟨lit "a", []⟩, ⟨lit "b", []⟩]

/-- The bytes `packEntries` writes; it does not compare the names. -/
def archiveOf (entries : List TarEntry) : List UInt8 := (packEntries entries).toOption.getD []

def sampleDigests : Hash :=
  ofTable [([], emptyDigest), (archiveOf aliasedEntries, aliasedDigest), (archiveOf pinnedEntries, pinnedDigest)]

def sampleRuntime : Runtime where
  numText d := decimal d.toInt.toNat
  sha256 := sampleDigests
  sign _ _ := none
  verify _ signature key := (signature = aliasedSignature || signature = pinnedSignature) && key = rootKey

def emptyPin (path : Str) : PolicyBundleFileEntry := ⟨path, JsNumber.ofInt 0, emptyDigest⟩

def sampleManifest (digest : Str) : PolicyBundleManifest where
  bundleId := lit "b1"
  tarSha256 := digest
  files := [emptyPin (lit "a"), emptyPin (lit "b")]
  signerPublicKey := rootKey
  signerDid := lit "did:aps:z6Mkon3Necd6NkkyfoGoHxid2znGc59LU3K7mubaRcFbLfLX"
  createdAt := lit "2026-01-01T00:00:00.000Z"
  governance := buildGovernance none
  scopeOfClaim := .obj []

def sampleOptions (entries : List TarEntry) : VerifyPolicyBundleOptions := ⟨none, none, some (archiveOf entries)⟩

theorem archiveOf_eq (h : ∀ entry ∈ entries, Fits entry) : packEntries entries = .ok (archiveOf entries) := by
  obtain ⟨archive, hpack⟩ := packEntries_fits h
  rw [archiveOf, hpack]
  rfl

theorem archiveOf_ne_nil (h : ∀ entry ∈ entries, Fits entry) : archiveOf entries ≠ [] := by
  obtain ⟨blocks, hblocks, hlength⟩ := packEntries_length (archiveOf_eq h)
  have hsize : BLOCK_SIZE = 512 := rfl
  intro hnil
  rw [hnil, List.length_nil, hsize] at hlength
  omega

theorem sample_read (hfits : ∀ entry ∈ entries, Fits entry) (hportable : ∀ entry ∈ entries, Portable entry.name) :
    unpackTar (archiveOf entries) = .ok entries := by
  rw [unpackTar_packEntries (archiveOf_eq hfits), Except.ok.injEq]
  conv_rhs => rw [← List.map_id entries]
  apply List.map_congr_left
  intro entry hentry
  rw [(readBack_eq_iff entry.name).mpr (hportable entry hentry)]
  rfl

theorem aliased_read : unpackTar (archiveOf aliasedEntries) = .ok aliasedEntries :=
  sample_read (by decide) (by decide)

theorem pinned_read : unpackTar (archiveOf pinnedEntries) = .ok pinnedEntries :=
  sample_read (by decide) (by decide)

theorem aliased_digest : sha256hex sampleRuntime (archiveOf aliasedEntries) = aliasedDigest := by
  have hne : [] ≠ archiveOf aliasedEntries := (archiveOf_ne_nil (by decide)).symm
  rw [sha256hex, show sampleRuntime.sha256 = sampleDigests from rfl, sampleDigests, ofTable_cons_ne hne, ofTable_cons_eq]
  decide

theorem pinned_digest : sha256hex sampleRuntime (archiveOf pinnedEntries) = pinnedDigest := by
  have hne : [] ≠ archiveOf pinnedEntries := (archiveOf_ne_nil (by decide)).symm
  have hother : archiveOf aliasedEntries ≠ archiveOf pinnedEntries := by
    intro heq
    have hread := pinned_read
    rw [← heq, aliased_read, Except.ok.injEq] at hread
    exact absurd hread (by decide)
  rw [sha256hex, show sampleRuntime.sha256 = sampleDigests from rfl, sampleDigests, ofTable_cons_ne hne,
    ofTable_cons_ne hother, ofTable_cons_eq]
  decide

theorem sample_valid {digest signature : Str} (hread : unpackTar (archiveOf entries) = .ok entries)
    (hcanonical : (canonicalizeJCS sampleRuntime.numText (sampleManifest digest).value).isOk = true)
    (hsigned : signature = aliasedSignature ∨ signature = pinnedSignature)
    (hdigest : sha256hex sampleRuntime (archiveOf entries) = digest)
    (hfiles : (verifyFileSet sampleRuntime entries (sampleManifest digest).files).1 = true) :
    ∃ result, verifyPolicyBundle sampleRuntime ⟨sampleManifest digest, signature, []⟩ (sampleOptions entries) =
      .ok result ∧ result.valid = true := by
  obtain ⟨canonical, hcanonical⟩ := exists_of_isOk hcanonical
  have hverify : sampleRuntime.verify canonical signature rootKey = true := by
    simp only [sampleRuntime, hsigned, Bool.or_eq_true, Bool.and_eq_true, decide_eq_true_eq, and_self]
  have hdid : isConsistent (sampleManifest digest) = true := by
    have hkey : isConsistent (sampleManifest []) = true := by decide +kernel
    exact hkey
  have htar : checkTar sampleRuntime ⟨sampleManifest digest, signature, []⟩ (sampleOptions entries) =
      ⟨true, true, (verifyFileSet sampleRuntime entries (sampleManifest digest).files).2⟩ := by
    have hpinned : (sampleManifest digest).tarSha256 = digest := rfl
    simp only [checkTar, readTar, sampleOptions, hread, hdigest, hpinned, hfiles, decide_true, if_true, List.nil_append]
  have hrevoked : isRevoked (sampleManifest digest) (sampleOptions entries) = false := rfl
  rw [verifyPolicyBundle, rethrow_eq_ok.mpr hcanonical]
  refine ⟨_, rfl, ?_⟩
  show (sampleRuntime.verify canonical signature rootKey && isConsistent (sampleManifest digest) && _ && _ && _) = true
  rw [hverify, hdid, htar, hrevoked]
  rfl

theorem valid_bundle_holds_pins_two_files : ∃ result,
    verifyPolicyBundle sampleRuntime ⟨sampleManifest pinnedDigest, pinnedSignature, []⟩ (sampleOptions pinnedEntries) =
      .ok result ∧
    result.valid = true ∧ HoldsPins sampleRuntime pinnedEntries (sampleManifest pinnedDigest).files := by
  obtain ⟨result, hverify, hvalid⟩ := sample_valid pinned_read (by decide +kernel) (.inr rfl) pinned_digest
    (by decide +kernel)
  obtain ⟨archive, entries, hread, hentries, hiff⟩ :=
    valid_bundle_holds_pins_iff sampleRuntime _ _ result hverify hvalid
  obtain rfl : archiveOf pinnedEntries = archive := Except.ok.inj hread
  obtain rfl : pinnedEntries = entries := Except.ok.inj (pinned_read.symm.trans hentries)
  exact ⟨result, hverify, hvalid, hiff.mpr (by decide)⟩

/-- The second name is the first again, and the file the manifest pins under its own name is not there. -/
theorem aliased_name_valid : ∃ result,
    verifyPolicyBundle sampleRuntime ⟨sampleManifest aliasedDigest, aliasedSignature, []⟩
      (sampleOptions aliasedEntries) = .ok result ∧
    result.valid = true ∧ unpackTar (archiveOf aliasedEntries) = .ok aliasedEntries ∧
    ¬ HoldsPins sampleRuntime aliasedEntries (sampleManifest aliasedDigest).files ∧
    lit "b" ∈ (sampleManifest aliasedDigest).files.map PolicyBundleFileEntry.path ∧
    lit "b" ∉ aliasedEntries.map TarEntry.name := by
  obtain ⟨result, hverify, hvalid⟩ := sample_valid aliased_read (by decide +kernel) (.inl rfl) aliased_digest
    (by decide +kernel)
  refine ⟨result, hverify, hvalid, aliased_read, ?_, by decide, by decide⟩
  intro hholds
  exact absurd hholds.names (by decide)

end AgentPassport.PolicyBundleFiles
