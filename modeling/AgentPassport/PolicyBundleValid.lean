import AgentPassport.PolicyBundle
import AgentPassport.TarRoundTrip

/-! A policy bundle that was built is valid when its archive gives back the names of its files. -/
namespace AgentPassport.PolicyBundleValid
open JsText Js CanonicalJcs Sha256 TextDecoder TarArchive TarRoundTrip PolicyBundle Outcome
open ByteBlocks (Block)
open Multibase (bytesToHex hexToBytes_bytesToHex bytesToHex_length)
open KeyRotation (createDID)

variable {R : Runtime}

theorem rethrow_eq_ok {ε ε' α : Type} {f : ε → ε'} {x : Except ε α} {a : α} : rethrow f x = .ok a ↔ x = .ok a := by
  cases x with
  | ok b =>
    constructor
    · intro h
      cases h
      rfl
    · intro h
      cases h
      rfl
  | error e =>
    constructor
    · intro h
      cases h
    · intro h
      cases h

theorem pinByPath_mem {pins : List PolicyBundleFileEntry} {name : Str} {pin : PolicyBundleFileEntry}
    (h : pin ∈ pins) (hpath : pin.path = name) (hunique : ∀ p ∈ pins, p.path = name → p = pin) :
    pinByPath pins name = some pin := by
  rw [pinByPath]
  have hmem : pin ∈ pins.filter (fun p => p.path = name) := List.mem_filter.mpr ⟨h, decide_eq_true hpath⟩
  have hne : pins.filter (fun p => p.path = name) ≠ [] := List.ne_nil_of_mem hmem
  rw [List.getLast?_eq_some_getLast hne, Option.some.injEq]
  obtain ⟨hlast, hname⟩ := List.mem_filter.mp (List.getLast_mem hne)
  exact hunique _ hlast (of_decide_eq_true hname)

theorem sortFiles_perm (files : List PolicyBundleFileEntry) : (sortFiles files).Perm files :=
  List.perm_insertionSort _ files

theorem size_eq {n : Nat} (h : n < 2 ^ 53) : (JsNumber.ofInt n).eq (JsNumber.ofInt n) = true := by
  obtain ⟨d, hd, -⟩ := ofInt_exact h
  rw [hd, JsNumber.eq]
  exact decide_eq_true rfl

variable {entries : List TarEntry}

theorem checkFile_pinned (hnames : (entries.map (·.name)).Nodup) {entry : TarEntry} (h : entry ∈ entries)
    (hsize : entry.data.length < 2 ^ 53) : checkFile R (sortFiles (entries.map (filePin R))) entry = [] := by
  have hmem : ∀ {pin}, pin ∈ sortFiles (entries.map (filePin R)) ↔ pin ∈ entries.map (filePin R) :=
    (sortFiles_perm _).mem_iff
  have hpin : pinByPath (sortFiles (entries.map (filePin R))) entry.name = some (filePin R entry) := by
    apply pinByPath_mem (hmem.mpr (List.mem_map_of_mem h)) rfl
    intro p hp hpath
    obtain ⟨other, hother, rfl⟩ := List.mem_map.mp (hmem.mp hp)
    rw [List.inj_on_of_nodup_map hnames hother h hpath]
  rw [checkFile, hpin]
  simp only [filePin, size_eq hsize, if_true, List.append_nil]

theorem verifyFileSet_pinned (hnames : (entries.map (·.name)).Nodup)
    (hsizes : ∀ entry ∈ entries, entry.data.length < 2 ^ 53) :
    verifyFileSet R (sortEntries entries) (sortFiles (entries.map (filePin R))) = (true, []) := by
  have hlength : (sortEntries entries).length = (sortFiles (entries.map (filePin R))).length := by
    rw [(sortEntries_perm entries).length_eq, (sortFiles_perm _).length_eq, List.length_map]
  have hnone : (sortEntries entries).flatMap (checkFile R (sortFiles (entries.map (filePin R)))) = [] := by
    rw [List.flatMap_eq_nil_iff]
    intro entry hentry
    have hmem := (sortEntries_perm entries).mem_iff.mp hentry
    exact checkFile_pinned hnames hmem (hsizes entry hmem)
  rw [verifyFileSet, if_neg (not_not.mpr hlength), hnone]
  rfl

variable {archive : List UInt8}

theorem packEntries_sizes (h : packEntries entries = .ok archive) : ∀ entry ∈ entries, entry.data.length < 8 ^ 11 := by
  induction entries generalizing archive with
  | nil => exact List.forall_mem_nil _
  | cons entry rest ih =>
    rw [packEntries, bind_eq_ok] at h
    obtain ⟨header, hheader, h⟩ := h
    rw [bind_eq_ok] at h
    obtain ⟨tail, htail, -⟩ := h
    exact List.forall_mem_cons.mpr ⟨(buildHeader_header hheader).1.dataFits, ih htail⟩

def SignsFor (R : Runtime) (privateKey publicKey : Str) : Prop :=
  ∀ message signature, R.sign message privateKey = some signature → R.verify message signature publicKey = true

/-- What a bundle is made of. -/
structure Built (R : Runtime) (input : CreatePolicyBundleInput) (envelope : PolicyBundleEnvelope) (archive : List UInt8) :
    Prop where
  files : envelope.manifest.files = sortFiles (input.entries.map (filePin R))
  tarSha256 : envelope.manifest.tarSha256 = sha256hex R archive
  tarHex : envelope.tarHex = bytesToHex archive
  publicKey : envelope.manifest.signerPublicKey = input.signerPublicKey
  did : createDID input.signerPublicKey = .ok envelope.manifest.signerDid
  signed : ∃ canonical, canonicalizeJCSForWrite R.numText envelope.manifest.value = .ok canonical ∧
    R.sign canonical input.signerPrivateKey = some envelope.signature

theorem signManifest_ok {manifest : PolicyBundleManifest} {key signature : Str}
    (h : signManifest R manifest key = .ok signature) :
    ∃ canonical, canonicalizeJCSForWrite R.numText manifest.value = .ok canonical ∧
      R.sign canonical key = some signature := by
  rw [signManifest, bind_eq_ok] at h
  obtain ⟨canonical, hcanonical, hsign⟩ := h
  refine ⟨canonical, rethrow_eq_ok.mp hcanonical, ?_⟩
  cases hsome : R.sign canonical key with
  | none =>
    rw [hsome] at hsign
    cases hsign
  | some s =>
    rw [hsome] at hsign
    cases hsign
    rfl

variable {input : CreatePolicyBundleInput} {envelope : PolicyBundleEnvelope}

theorem createPolicyBundle_built {now : Str} (h : createPolicyBundle R now input = .ok envelope) :
    ∃ archive, packTar input.entries = .ok archive ∧ Built R input envelope archive := by
  rw [createPolicyBundle, bind_unit_eq_ok] at h
  obtain ⟨-, h⟩ := h
  rw [bind_eq_ok] at h
  obtain ⟨archive, hpack, h⟩ := h
  rw [bind_eq_ok] at h
  obtain ⟨did, hdid, h⟩ := h
  rw [bind_eq_ok] at h
  obtain ⟨signature, hsign, h⟩ := h
  cases h
  exact ⟨archive, rethrow_eq_ok.mp hpack, rfl, rfl, rfl, rfl, rethrow_eq_ok.mp hdid, signManifest_ok hsign⟩

theorem hexToBytes_written (bytes : List UInt8) : PolicyBundle.hexToBytes (bytesToHex bytes) = .ok bytes := by
  have hall : (bytesToHex bytes).all isHex = true := by
    rw [List.all_eq_true]
    intro c hc
    rw [isHex, lower_of_bytesToHex bytes c hc, Bool.true_or]
  rw [PolicyBundle.hexToBytes, bytesToHex_length, hall, if_neg (by simp), hexToBytes_bytesToHex]
  rfl

/-- The archive comes from the caller or from the envelope. -/
def SameArchive (options : VerifyPolicyBundleOptions) (archive : List UInt8) : Prop :=
  options.tarBytes = none ∨ options.tarBytes = some archive

variable {options : VerifyPolicyBundleOptions}

theorem readTar_built (h : Built R input envelope archive) (hoptions : SameArchive options archive) :
    readTar envelope options = .ok archive := by
  rw [readTar]
  rcases hoptions with hnone | hsome
  · rw [hnone, h.tarHex]
    exact hexToBytes_written archive
  · rw [hsome]

theorem checkTar_built (h : Built R input envelope archive) (hoptions : SameArchive options archive)
    (hpack : packTar input.entries = .ok archive) (hread : unpackTar archive = .ok (sortEntries input.entries)) :
    checkTar R envelope options = ⟨true, true, []⟩ := by
  obtain ⟨hnames, hentries⟩ := packTar_ok hpack
  have hsizes : ∀ entry ∈ input.entries, entry.data.length < 2 ^ 53 := by
    intro entry hentry
    have hsize := packEntries_sizes hentries entry ((sortEntries_perm _).mem_iff.mpr hentry)
    exact Nat.lt_trans hsize (by decide)
  rw [checkTar, readTar_built h hoptions]
  simp only [hread, h.files, h.tarSha256, verifyFileSet_pinned hnames hsizes]
  rfl

theorem verifyPolicyBundle_built (h : Built R input envelope archive)
    (hkeys : SignsFor R input.signerPrivateKey input.signerPublicKey) (hoptions : SameArchive options archive)
    (hpack : packTar input.entries = .ok archive) (hread : unpackTar archive = .ok (sortEntries input.entries)) :
    ∃ result, verifyPolicyBundle R envelope options = .ok result ∧
      result.valid = !isRevoked envelope.manifest options := by
  obtain ⟨canonical, hwrite, hsign⟩ := h.signed
  have hcanonical : rethrow BundleError.canonical (canonicalizeJCS R.numText envelope.manifest.value) = .ok canonical :=
    rethrow_eq_ok.mpr (CanonicalWrite.canonicalizeJCS_of_write hwrite)
  have hverify : R.verify canonical envelope.signature envelope.manifest.signerPublicKey = true := by
    rw [h.publicKey]
    exact hkeys canonical envelope.signature hsign
  have hdid : isConsistent envelope.manifest = true := by
    rw [isConsistent, h.publicKey, h.did]
    exact decide_eq_true rfl
  rw [verifyPolicyBundle, hcanonical]
  refine ⟨_, rfl, ?_⟩
  rw [hverify, hdid, checkTar_built h hoptions hpack hread]
  rfl

/-- For every archive that is packed: the entries come back as they were, every order of them gives the
same archive and every bundle built from them is valid unless its anchor revokes it, exactly when every
name is portable. -/
theorem policy_bundle_round_trip_iff (R : Runtime) {entries : List TarEntry} {archive : List UInt8}
    (h : packTar entries = .ok archive) :
    (unpackTar archive = .ok (sortEntries entries) ∧
      (∀ entries', entries'.Perm entries → packTar entries' = .ok archive) ∧
      ∀ now input envelope, CreatePolicyBundleInput.entries input = entries →
        SignsFor R input.signerPrivateKey input.signerPublicKey → createPolicyBundle R now input = .ok envelope →
        ∀ options, SameArchive options archive →
          ∃ result, verifyPolicyBundle R envelope options = .ok result ∧
            result.valid = !isRevoked envelope.manifest options) ↔
      ∀ entry ∈ entries, Portable entry.name := by
  rw [← unpackTar_eq_iff h]
  constructor
  · intro hall
    exact hall.1
  · intro hread
    refine ⟨hread, fun entries' => packTar_perm h, ?_⟩
    intro now input envelope hentries hkeys hcreate options hoptions
    obtain ⟨archive', hpack, hbuilt⟩ := createPolicyBundle_built hcreate
    subst hentries
    rw [h] at hpack
    cases hpack
    exact verifyPolicyBundle_built hbuilt hkeys hoptions h hread

def twoFiles : List TarEntry := [⟨lit "rules/spend.json", [0x7B, 0x7D]⟩, ⟨lit "README", []⟩]

def twoFilesArchive : List UInt8 := (packTar twoFiles).toOption.getD []

def samplePrivateKey : Str := (List.replicate 32 (lit "01")).flatten

def samplePublicKey : Str := lit "8a88e3dd7409f195fd52db2d3cba5d72ca6709bf1d94121bf3748801b40f6f5c"

def emptyDigest : Str := lit "e3b0c44298fc1c149afbf4c8996fb92427ae41e4649b934ca495991b7852b855"

def spendDigest : Str := lit "44136fa355b3678a1146ad16f7e8649e94fb4fc21fe77e8310c060f61caaff8a"

def archiveDigest : Str := lit "0bbf0fca7ec200fcb472cf15bf801e2a920ef0636d88a79144e20e045c40a5be"

def sampleManifest : PolicyBundleManifest where
  bundleId := lit "spend"
  tarSha256 := archiveDigest
  files := [⟨lit "README", .ofInt 0, emptyDigest⟩, ⟨lit "rules/spend.json", .ofInt 2, spendDigest⟩]
  signerPublicKey := samplePublicKey
  signerDid := lit "did:aps:z6Mkon3Necd6NkkyfoGoHxid2znGc59LU3K7mubaRcFbLfLX"
  createdAt := lit "2026-01-01T00:00:00.000Z"
  governance := buildGovernance none
  scopeOfClaim := defaultPolicyBundleScope

def numberText (d : Double) : Str := decimal d.toInt.toNat

def manifestText : Str := (canonicalizeJCSForWrite numberText sampleManifest.value).toOption.getD []

def manifestSignature : Str :=
  lit "7d817c1e1ee115635f52c6540f0145ee683abc05a50f1910347a97ff385094cc" ++
    lit "fbfa75db8efa255d48d8869bdb29addb6a4f2faae05a67d5af9fa2a13e8e9b0f"

/-- The SHA-256 digests of the files and of their archive, and the Ed25519 signature of the manifest. -/
def sampleRuntime : Runtime where
  numText := numberText
  sha256 input := (asBlock (Multibase.hexToBytes (
    if input = [] then emptyDigest else if input = [0x7B, 0x7D] then spendDigest
    else if input = twoFilesArchive then archiveDigest else []))).getD (Block.zero 32)
  sign message key := if message = manifestText ∧ key = samplePrivateKey then some manifestSignature else none
  verify message signature key := message = manifestText ∧ signature = manifestSignature ∧ key = samplePublicKey

def sampleBundle : CreatePolicyBundleInput where
  bundleId := lit "spend"
  files := [⟨lit "rules/spend.json", .text (lit "\x7b\x7d")⟩, ⟨lit "README", .bytes []⟩]
  signerPrivateKey := samplePrivateKey
  signerPublicKey := samplePublicKey
  governance := none
  scopeOfClaim := none
  createdAt := none

theorem sample_signsFor : SignsFor sampleRuntime samplePrivateKey samplePublicKey := by
  intro message signature h
  simp only [sampleRuntime] at h
  split at h
  · rename_i hsigned
    cases h
    simp [sampleRuntime, hsigned.1]
  · cases h

theorem sample_sha256 (h : unpackTar twoFilesArchive = .ok twoFiles.reverse) :
    sha256hex sampleRuntime twoFilesArchive = archiveDigest := by
  have hempty : twoFilesArchive ≠ [] := by
    intro hnil
    rw [hnil] at h
    exact absurd h (by decide)
  have hshort : twoFilesArchive ≠ [0x7B, 0x7D] := by
    intro hpair
    rw [hpair] at h
    exact absurd h (by decide)
  rw [sha256hex, sampleRuntime]
  simp only [if_neg hempty, if_neg hshort, if_true]
  decide +kernel

theorem sample_created {archive : List UInt8} (hpack : packTar twoFiles = .ok archive)
    (hread : unpackTar archive = .ok twoFiles.reverse) :
    createPolicyBundle sampleRuntime (lit "2026-01-01T00:00:00.000Z") sampleBundle =
      .ok ⟨sampleManifest, manifestSignature, bytesToHex archive⟩ := by
  have harchive : archive = twoFilesArchive := by
    rw [twoFilesArchive, hpack]
    rfl
  have hdid : createDID samplePublicKey = .ok sampleManifest.signerDid := by
    have hnamed : (createDID samplePublicKey).toOption.map id = some sampleManifest.signerDid := by decide +kernel
    obtain ⟨did, hdid, hid⟩ := exists_ok_of_map hnamed
    exact hdid.trans (congrArg Except.ok hid)
  have hmanifest : manifestOf sampleRuntime (lit "2026-01-01T00:00:00.000Z") sampleBundle archive
      sampleManifest.signerDid = sampleManifest := by
    have hpins : sortFiles (twoFiles.map (filePin sampleRuntime)) = sampleManifest.files := by decide +kernel
    rw [harchive] at hread
    rw [manifestOf, harchive, sample_sha256 hread]
    exact congrArg (fun files => { sampleManifest with files }) hpins
  have hsigned : signManifest sampleRuntime sampleManifest samplePrivateKey = .ok manifestSignature := by
    have hwrites : (canonicalizeJCSForWrite numberText sampleManifest.value).isOk = true := by decide +kernel
    obtain ⟨text, htext⟩ := exists_of_isOk hwrites
    have hmessage : text = manifestText := by
      rw [manifestText, htext]
      rfl
    refine bind_eq_ok.mpr ⟨text, rethrow_eq_ok.mpr htext, ?_⟩
    simp only [sampleRuntime, hmessage, and_self, if_true]
    rfl
  rw [createPolicyBundle, bind_unit_eq_ok]
  refine ⟨rfl, bind_eq_ok.mpr ⟨archive, rethrow_eq_ok.mpr hpack, bind_eq_ok.mpr ⟨_, rethrow_eq_ok.mpr hdid, ?_⟩⟩⟩
  rw [hmanifest]
  exact bind_eq_ok.mpr ⟨manifestSignature, hsigned, rfl⟩

/-- Two files that are not in name order come back in name order, and the bundle made of them is valid. -/
theorem policy_bundle_two_files : ∃ archive envelope result,
    packTar twoFiles = .ok archive ∧ packTar twoFiles.reverse = .ok archive ∧
    unpackTar archive = .ok twoFiles.reverse ∧
    createPolicyBundle sampleRuntime (lit "2026-01-01T00:00:00.000Z") sampleBundle = .ok envelope ∧
    verifyPolicyBundle sampleRuntime envelope ⟨none, none, some archive⟩ = .ok result ∧ result.valid = true := by
  obtain ⟨archive, hpack⟩ : ∃ archive, packTar twoFiles = .ok archive :=
    packTar_accepts (by decide) (by decide)
  have hportable : ∀ entry ∈ twoFiles, Portable entry.name := by decide
  obtain ⟨hread, horder, hbundle⟩ := (policy_bundle_round_trip_iff sampleRuntime hpack).mpr hportable
  have hcreated := sample_created hpack hread
  obtain ⟨result, hresult, hvalid⟩ :=
    hbundle _ sampleBundle _ rfl sample_signsFor hcreated ⟨none, none, some archive⟩ (.inr rfl)
  exact ⟨archive, _, result, hpack, horder _ (List.reverse_perm _), hread, hcreated, hresult, hvalid⟩

/-- A name that ends in a space comes back without it. -/
theorem trailing_space_lost :
    ∃ archive, packTar [⟨lit "rules.json ", [0x7B, 0x7D]⟩] = .ok archive ∧
      unpackTar archive = .ok [⟨lit "rules.json", [0x7B, 0x7D]⟩] ∧
      unpackTar archive ≠ .ok (sortEntries [⟨lit "rules.json ", [0x7B, 0x7D]⟩]) := by
  obtain ⟨archive, hpack⟩ : ∃ archive, packTar [⟨lit "rules.json ", [0x7B, 0x7D]⟩] = .ok archive :=
    packTar_accepts (by decide) (by decide)
  have hread : unpackTar archive = .ok [⟨lit "rules.json", [0x7B, 0x7D]⟩] := by
    rw [unpackTar_packTar hpack]
    decide
  refine ⟨archive, hpack, hread, ?_⟩
  rw [hread]
  decide

end AgentPassport.PolicyBundleValid
