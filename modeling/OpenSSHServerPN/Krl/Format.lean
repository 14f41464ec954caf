/-
Key revocation lists: what is revoked, and the file format (`krl.c`, `sshbuf-getput-basic.c`).

Model: `SshKrl` is `struct ssh_krl`: the revoked keys and fingerprints, and for every CA, or for all of them, the revoked
serials and key ids. `revoke` is one of the five calls that add a revocation. `toBlob` is `ssh_krl_to_blob`; `fromBlob` is
`ssh_krl_from_blob`, which reads the sections as calls and makes them on an empty list. Keys are a type `K` with a
`KeyCodec`; two keys are equal if `sshkey_equal` says so.

A buffer holds at most `SSHBUF_SIZE_MAX` bytes. Sections are copied into the buffer of the whole blob, so writing fails
for lack of space exactly if the complete blob is too long.

Results:
- `revoke_revokes`: a call that succeeds adds what it names, and nothing else;
- `revokeAll_revokes`: so do the calls of a whole file.
-/
import OpenSSHServerPN.Krl.Serials
import OpenSSHServerPN.Packet.State

namespace OpenSSHServerPN.Krl

open Wire Packet List

/-! ## Revocation lists -/

/-- a C string -/
abbrev CString := { bs : Bytes // 0 ∉ bs }

/-- the C string at the start of some bytes -/
def cstr (bs : Bytes) : CString :=
  ⟨bs.takeWhile (· ≠ 0), fun h => by simpa using List.mem_takeWhile_imp h⟩

abbrev Digest (n : ℕ) := { bs : Bytes // bs.length = n }

/-- insertion into a tree ordered by `blob_cmp` or `strcmp`; what is there stays -/
def treeInsert {α : Type} [DecidableEq α] (key : α → Bytes) (x : α) : List α → List α
  | [] => [x]
  | y :: ys => if x = y then y :: ys else if key x < key y then x :: y :: ys else y :: treeInsert key x ys

/-- `struct revoked_certs` -/
structure RevokedCerts (K : Type) where
  /-- `none` for all CAs -/
  caKey : Option K
  serials : RevokedSerialTree
  keyIds : List CString

/-- `struct ssh_krl` -/
structure SshKrl (K : Type) where
  version : UInt64
  generatedDate : UInt64
  flags : UInt64
  comment : CString
  keys : List Bytes
  sha1s : List (Digest 20)
  sha256s : List (Digest 32)
  certs : List (RevokedCerts K)

variable {K : Type}

/-- `ssh_krl_init` -/
def SshKrl.init : SshKrl K := ⟨0, 0, 0, cstr [], [], [], [], []⟩

/-- a call that revokes something -/
inductive Revocation (K : Type) where
  /-- `ssh_krl_revoke_cert_by_serial_range` -/
  | serialRange (ca : Option K) (lo hi : UInt64)
  /-- `ssh_krl_revoke_cert_by_key_id` -/
  | keyId (ca : Option K) (id : CString)
  /-- `ssh_krl_revoke_key_explicit`, of the key with this plain blob -/
  | explicit (blob : Bytes)
  /-- `ssh_krl_revoke_key_sha1` -/
  | sha1 (digest : Bytes)
  /-- `ssh_krl_revoke_key_sha256` -/
  | sha256 (digest : Bytes)

/-- `revoked_certs_for_ca_key` and a change to what it finds; a new entry goes to the tail -/
def forCaKey [DecidableEq K] (ca : Option K) (f : RevokedCerts K → RevokedCerts K) :
    List (RevokedCerts K) → List (RevokedCerts K)
  | [] => [f ⟨ca, .empty, []⟩]
  | rc :: rest => if rc.caKey = ca then f rc :: rest else rc :: forCaKey ca f rest

def RevokedCerts.addSerials (rs : RevokedSerial) (rc : RevokedCerts K) : RevokedCerts K :=
  { rc with serials := rc.serials.insert rs }

def RevokedCerts.addKeyId (id : CString) (rc : RevokedCerts K) : RevokedCerts K :=
  { rc with keyIds := treeInsert Subtype.val id rc.keyIds }

/-- the calls; a refused call leaves the list as it is -/
def revoke [DecidableEq K] (krl : SshKrl K) : Revocation K → Option (SshKrl K)
  | .serialRange ca lo hi =>
    if h : 0 < lo.toNat ∧ lo.toNat ≤ hi.toNat then
      some { krl with certs := forCaKey ca (.addSerials ⟨lo.toNat, hi.toNat, h.1, h.2, hi.toNat_lt⟩) krl.certs }
    else none
  | .keyId ca id => some { krl with certs := forCaKey ca (.addKeyId id) krl.certs }
  | .explicit blob => some { krl with keys := treeInsert (fun b => b) blob krl.keys }
  | .sha1 digest =>
    if h : digest.length = 20 then some { krl with sha1s := treeInsert Subtype.val ⟨digest, h⟩ krl.sha1s } else none
  | .sha256 digest =>
    if h : digest.length = 32 then some { krl with sha256s := treeInsert Subtype.val ⟨digest, h⟩ krl.sha256s } else none

/-- a call by a program, which may be refused -/
def step [DecidableEq K] (krl : SshKrl K) (r : Revocation K) : SshKrl K := (revoke krl r).getD krl

/-- calls that all have to succeed -/
def revokeAll [DecidableEq K] : SshKrl K → List (Revocation K) → Option (SshKrl K)
  | krl, [] => some krl
  | krl, r :: rs => (revoke krl r).bind fun krl => revokeAll krl rs

/-! ## Writing -/

/-- the encoding of keys; a blob starts with the name of the type of the key -/
structure KeyCodec (K : Type) where
  toBlob : K → Bytes
  fromBlob : Bytes → Option K
  fromBlob_toBlob : ∀ k, fromBlob (toBlob k) = some k
  toBlob_ne_nil : ∀ k, toBlob k ≠ []

def KRL_SECTION_CERTIFICATES : UInt8 := 1
def KRL_SECTION_EXPLICIT_KEY : UInt8 := 2
def KRL_SECTION_FINGERPRINT_SHA1 : UInt8 := 3
def KRL_SECTION_SIGNATURE : UInt8 := 4
def KRL_SECTION_FINGERPRINT_SHA256 : UInt8 := 5
def KRL_SECTION_EXTENSION : UInt8 := 255
def KRL_SECTION_CERT_SERIAL_LIST : UInt8 := 0x20
def KRL_SECTION_CERT_SERIAL_RANGE : UInt8 := 0x21
def KRL_SECTION_CERT_SERIAL_BITMAP : UInt8 := 0x22
def KRL_SECTION_CERT_KEY_ID : UInt8 := 0x23
def KRL_SECTION_CERT_EXTENSION : UInt8 := 0x39

def KRL_MAGIC : Bytes := ascii "SSHKRL\n" ++ [0]
def KRL_FORMAT_VERSION : UInt32 := 1

/-- a section or a subsection: its type, and its contents as a string -/
def putSection (s : UInt8 × Bytes) : Bytes := putU8 s.1 ++ putString s.2

def putSerial (n : ℕ) : Bytes := putU64 (UInt64.ofNat n)

/-- `sshbuf_put_bignum2_bytes`: without leading zeros, but not negative -/
def putBignum2Bytes (bs : Bytes) : Bytes :=
  let s := bs.dropWhile (· = 0)
  putString (if ∃ b ∈ s.head?, 0x80 ≤ b then 0 :: s else s)

/-- `bitmap_to_string` -/
def bitmapToString (bits : ℕ) : Bytes := be ((bitmapNbits bits + 7) / 8) bits

def Subsection.type : Subsection → UInt8
  | .list _ => KRL_SECTION_CERT_SERIAL_LIST
  | .range _ => KRL_SECTION_CERT_SERIAL_RANGE
  | .bitmap _ _ => KRL_SECTION_CERT_SERIAL_BITMAP

/-- the buffer `sect` of a subsection that is finished -/
def Subsection.body : Subsection → Bytes
  | .list serials => serials.flatMap putSerial
  | .range ranges => ranges.flatMap fun r => putSerial r.lo ++ putSerial r.hi
  | .bitmap start bits => putSerial start ++ putBignum2Bytes (bitmapToString bits)

/-- a section of strings, if there are any -/
def stringSection (type : UInt8) (strings : List Bytes) : List (UInt8 × Bytes) :=
  if strings.flatMap putString = [] then [] else [(type, strings.flatMap putString)]

/-- the subsections of a CA -/
def certSubsections (rc : RevokedCerts K) (subs : List Subsection) : List (UInt8 × Bytes) :=
  subs.map (fun s => (s.type, s.body)) ++ stringSection KRL_SECTION_CERT_KEY_ID (rc.keyIds.map Subtype.val)

def certBody (codec : KeyCodec K) (rc : RevokedCerts K) (subs : List Subsection) : Bytes :=
  putString (rc.caKey.elim [] codec.toBlob) ++ (putString [] ++ (certSubsections rc subs).flatMap putSection)

/-- `revoked_certs_generate` -/
def revokedCertsGenerate (codec : KeyCodec K) (rc : RevokedCerts K) : Option Bytes :=
  (serialSections rc.serials).map (certBody codec rc)

def putHeader (krl : SshKrl K) : Bytes :=
  KRL_MAGIC ++ (putU32 KRL_FORMAT_VERSION ++ (putU64 krl.version ++ (putU64 krl.generatedDate ++ (putU64 krl.flags ++
    (putString [] ++ putString krl.comment.1)))))

/-- the sections, from the contents of the certificate sections -/
def krlSections (krl : SshKrl K) (certs : List Bytes) : List (UInt8 × Bytes) :=
  certs.map (fun body => (KRL_SECTION_CERTIFICATES, body)) ++ (stringSection KRL_SECTION_EXPLICIT_KEY krl.keys ++
    (stringSection KRL_SECTION_FINGERPRINT_SHA1 (krl.sha1s.map Subtype.val) ++
      stringSection KRL_SECTION_FINGERPRINT_SHA256 (krl.sha256s.map Subtype.val)))

/-- the time of the first writing is kept -/
def SshKrl.dated (krl : SshKrl K) (now : UInt64) : SshKrl K :=
  { krl with generatedDate := if krl.generatedDate = 0 then now else krl.generatedDate }

/-- `ssh_krl_to_blob` at the time `now` -/
def toBlob (codec : KeyCodec K) (now : UInt64) (krl : SshKrl K) : Option Bytes := do
  let certs ← krl.certs.mapM (revokedCertsGenerate codec)
  let blob := putHeader (krl.dated now) ++ (krlSections krl certs).flatMap putSection
  if blob.length ≤ SSHBUF_SIZE_MAX then some blob else none

/-! ## Reading -/

def SSHBUF_MAX_BIGNUM : ℕ := 16384 / 8

/-- `sshbuf_get_bignum2_bytes_direct` -/
def getBignum2Bytes : Get Bytes := do
  let d ← getStr
  guard (¬∃ b ∈ d.head?, 0x80 ≤ b)
  guard (¬(SSHBUF_MAX_BIGNUM + 1 < d.length ∨ (d.length = SSHBUF_MAX_BIGNUM + 1 ∧ d.head? ≠ some 0)))
  pure (d.dropWhile (· = 0))

/-- one serial of a list or a bitmap: `ssh_krl_revoke_cert_by_serial` -/
def revokeSerial (ca : Option K) (serial : UInt64) : Revocation K := .serialRange ca serial serial

/-- the calls for a bitmap, or an error if it is too long or wraps around -/
def bitmapCalls (ca : Option K) (lo : UInt64) (s : Bytes) : Option (List (Revocation K)) :=
  let nbits := bitmapNbits (ofBe s)
  if BITMAP_MAX / 8 < s.length then none
  else if ∃ i < nbits, 0 < i ∧ lo + UInt64.ofNat i = 0 then none
  else some (((List.range nbits).filter (ofBe s).testBit).map fun i => revokeSerial ca (lo + UInt64.ofNat i))

/-- `cert_extension_subsection` and `extension_section`: an extension that is not critical is skipped -/
def extensionSection (body : Bytes) : Option (List (Revocation K)) := do
  let critical ← whole (do
    let _ ← getCstring
    let critical ← getU8
    let _ ← getStr
    pure critical) body
  guard (critical = 0)
  pure []

/-- a range subsection: one range -/
def getRange (ca : Option K) : Get (List (Revocation K)) := do
  let lo ← getU64
  let hi ← getU64
  pure [.serialRange ca lo hi]

/-- a bitmap subsection: the first serial, and the bits -/
def getBitmap : Get (UInt64 × Bytes) := do
  let lo ← getU64
  let blob ← getBignum2Bytes
  pure (lo, blob)

/-- one subsection of `parse_revoked_certs`, which has to be used up -/
def parseSubsection (ca : Option K) (s : UInt8 × Bytes) : Option (List (Revocation K)) :=
  if s.1 = KRL_SECTION_CERT_SERIAL_LIST then (getMany getU64 s.2).map fun serials => serials.map (revokeSerial ca)
  else if s.1 = KRL_SECTION_CERT_SERIAL_RANGE then whole (getRange ca) s.2
  else if s.1 = KRL_SECTION_CERT_SERIAL_BITMAP then (whole getBitmap s.2).bind fun b => bitmapCalls ca b.1 b.2
  else if s.1 = KRL_SECTION_CERT_KEY_ID then (getMany getCstring s.2).map fun ids => ids.map fun id => .keyId ca (cstr id)
  else if s.1 = KRL_SECTION_CERT_EXTENSION then extensionSection s.2
  else none

/-- the type and the contents of a subsection -/
def getSubsection : Get (UInt8 × Bytes) := do
  let type ← getU8
  let body ← getStr
  pure (type, body)

/-- a signature has a second string -/
def getSection : Get (UInt8 × Bytes) := do
  let s ← getSubsection
  if s.1 = KRL_SECTION_SIGNATURE then do
    let _ ← getStr
    pure s
  else pure s

/-- the header of a certificate section: the CA, and a reserved string -/
def getCa (codec : KeyCodec K) : Get (Option K) := do
  let blob ← getStr
  let _ ← getStr
  if blob = [] then pure none
  else match codec.fromBlob blob with
    | some key => pure (some key)
    | none => failure

/-- `parse_revoked_certs` -/
def parseRevokedCerts (codec : KeyCodec K) (body : Bytes) : Option (List (Revocation K)) := do
  let (ca, rest) ← getCa codec body
  let subs ← getMany getSubsection rest
  let calls ← subs.mapM (parseSubsection ca)
  pure calls.flatten

/-- one section of `ssh_krl_from_blob`. The lengths of fingerprints are checked by the calls. -/
def parseSection (codec : KeyCodec K) (s : UInt8 × Bytes) : Option (List (Revocation K)) :=
  if s.1 = KRL_SECTION_CERTIFICATES then parseRevokedCerts codec s.2
  else if s.1 = KRL_SECTION_EXPLICIT_KEY then (getMany getStr s.2).map fun blobs => blobs.map .explicit
  else if s.1 = KRL_SECTION_FINGERPRINT_SHA1 then (getMany getStr s.2).map fun digests => digests.map .sha1
  else if s.1 = KRL_SECTION_FINGERPRINT_SHA256 then (getMany getStr s.2).map fun digests => digests.map .sha256
  else if s.1 = KRL_SECTION_EXTENSION then extensionSection s.2
  else if s.1 = KRL_SECTION_SIGNATURE then some []
  else none

/-- the header; the list is empty otherwise -/
def getHeader : Get (SshKrl K) := do
  let magic ← getBytes KRL_MAGIC.length
  guard (magic = KRL_MAGIC)
  let format ← getU32
  guard (format = KRL_FORMAT_VERSION)
  let version ← getU64
  let generatedDate ← getU64
  let flags ← getU64
  let _ ← getStr
  let comment ← getCstring
  pure { SshKrl.init with version, generatedDate, flags, comment := cstr comment }

/-- `ssh_krl_from_blob` -/
def fromBlob [DecidableEq K] (codec : KeyCodec K) (blob : Bytes) : Option (SshKrl K) := do
  let (krl, rest) ← getHeader blob
  let sects ← getMany getSection rest
  let calls ← sects.mapM (parseSection codec)
  revokeAll krl calls.flatten

/-! ## What is revoked -/

/-- something that can be revoked -/
inductive Item (K : Type) where
  | serial (ca : Option K) (n : ℕ)
  | keyId (ca : Option K) (id : CString)
  | key (blob : Bytes)
  | sha1 (digest : Bytes)
  | sha256 (digest : Bytes)

/-- the serials and key ids of every CA, and the keys and fingerprints of a list -/
def SshKrl.Revokes (krl : SshKrl K) : Item K → Prop
  | .serial ca n => ∃ rc ∈ krl.certs, rc.caKey = ca ∧ n ∈ rc.serials
  | .keyId ca id => ∃ rc ∈ krl.certs, rc.caKey = ca ∧ id ∈ rc.keyIds
  | .key blob => blob ∈ krl.keys
  | .sha1 digest => digest ∈ krl.sha1s.map Subtype.val
  | .sha256 digest => digest ∈ krl.sha256s.map Subtype.val

/-- what a call asks for -/
def Revocation.Names : Revocation K → Item K → Prop
  | .serialRange ca lo hi, .serial ca' n => ca' = ca ∧ lo.toNat ≤ n ∧ n ≤ hi.toNat
  | .keyId ca id, .keyId ca' id' => ca' = ca ∧ id' = id
  | .explicit blob, .key blob' => blob' = blob
  | .sha1 digest, .sha1 digest' => digest' = digest
  | .sha256 digest, .sha256 digest' => digest' = digest
  | _, _ => False

/-- what `revoke` accepts -/
def Revocation.Valid : Revocation K → Prop
  | .serialRange _ lo hi => 0 < lo.toNat ∧ lo.toNat ≤ hi.toNat
  | .sha1 digest => digest.length = 20
  | .sha256 digest => digest.length = 32
  | _ => True

theorem mem_treeInsert {α : Type} [DecidableEq α] {key : α → Bytes} {x z : α} {l : List α} :
    z ∈ treeInsert key x l ↔ z ∈ l ∨ z = x := by
  induction l with
  | nil => simp [treeInsert]
  | cons y ys ih =>
    rw [treeInsert]
    split_ifs with heq hlt
    · subst heq
      simp only [mem_cons]
      tauto
    · simp only [mem_cons]
      tauto
    · simp only [mem_cons]
      tauto

theorem mem_map_treeInsert {n : ℕ} {x : Digest n} {z : Bytes} {l : List (Digest n)} :
    z ∈ (treeInsert Subtype.val x l).map Subtype.val ↔ z ∈ l.map Subtype.val ∨ z = x.1 := by
  simp only [mem_map, mem_treeInsert, or_and_right, exists_or, exists_eq_left]
  exact or_congr Iff.rfl eq_comm

variable [DecidableEq K] {f : RevokedCerts K → RevokedCerts K} {p : RevokedCerts K → Prop} {ca ca' : Option K}

/-- a change to the entry of a CA, seen through a property `p` to which it adds `q` -/
theorem exists_forCaKey
    {q : Prop} (hca : ∀ rc, (f rc).caKey = rc.caKey) (hf : ∀ rc, p (f rc) ↔ p rc ∨ q)
    (hnew : ¬p ⟨ca, .empty, []⟩) (certs : List (RevokedCerts K)) :
    (∃ rc ∈ forCaKey ca f certs, rc.caKey = ca' ∧ p rc) ↔ (∃ rc ∈ certs, rc.caKey = ca' ∧ p rc) ∨ (ca' = ca ∧ q) := by
  induction certs with
  | nil =>
    simp only [forCaKey, mem_singleton, exists_eq_left, hca, hf, not_mem_nil, false_and, exists_false, false_or]
    constructor
    · rintro ⟨rfl, h⟩
      exact ⟨rfl, h.resolve_left hnew⟩
    · rintro ⟨rfl, h⟩
      exact ⟨rfl, .inr h⟩
  | cons rc rest ih =>
    rw [forCaKey]
    split_ifs with heq
    · subst heq
      simp only [mem_cons, or_and_right, exists_or, exists_eq_left, hca, hf]
      constructor
      · rintro (⟨rfl, h | h⟩ | h)
        · exact .inl (.inl ⟨rfl, h⟩)
        · exact .inr ⟨rfl, h⟩
        · exact .inl (.inr h)
      · rintro ((⟨h1, h2⟩ | h) | ⟨rfl, h⟩)
        · exact .inl ⟨h1, .inl h2⟩
        · exact .inr h
        · exact .inl ⟨rfl, .inr h⟩
    · simp only [mem_cons, or_and_right, exists_or, ih, or_assoc]

theorem exists_forCaKey_same
    (hca : ∀ rc, (f rc).caKey = rc.caKey) (hf : ∀ rc, p (f rc) ↔ p rc)
    (hnew : ¬p ⟨ca, .empty, []⟩) (certs : List (RevokedCerts K)) :
    (∃ rc ∈ forCaKey ca f certs, rc.caKey = ca' ∧ p rc) ↔ ∃ rc ∈ certs, rc.caKey = ca' ∧ p rc := by
  rw [exists_forCaKey hca (fun rc => (hf rc).trans (or_false _).symm.to_iff) hnew]
  simp

variable {r : Revocation K}

/-- **One call.** A call that succeeds adds what it names, and nothing else. -/
theorem revoke_revokes {krl krl' : SshKrl K} (h : revoke krl r = some krl') (i : Item K) :
    krl'.Revokes i ↔ krl.Revokes i ∨ r.Names i := by
  cases r with
  | serialRange ca lo hi =>
    rw [revoke] at h
    split at h
    · obtain rfl := Option.some.inj h
      cases i with
      | serial ca' n =>
        exact exists_forCaKey (p := fun rc => n ∈ rc.serials) (f := .addSerials _) (fun _ => rfl) (fun _ => mem_insert)
          (not_mem_empty n) krl.certs
      | keyId ca' id =>
        exact (exists_forCaKey_same (p := fun rc => id ∈ rc.keyIds) (f := .addSerials _) (fun _ => rfl) (fun _ => Iff.rfl)
          not_mem_nil krl.certs).trans (or_iff_left not_false).symm
      | key | sha1 | sha256 => exact (or_iff_left not_false).symm
    · cases h
  | keyId ca id =>
    obtain rfl := Option.some.inj h
    cases i with
    | serial ca' n =>
      exact (exists_forCaKey_same (f := .addKeyId id) (fun _ => rfl) (fun _ => Iff.rfl)
        (not_mem_empty n) krl.certs).trans (or_iff_left not_false).symm
    | keyId ca' id' =>
      exact exists_forCaKey (p := fun rc => id' ∈ rc.keyIds) (f := .addKeyId id) (fun _ => rfl) (fun _ => mem_treeInsert)
        not_mem_nil krl.certs
    | key | sha1 | sha256 => exact (or_iff_left not_false).symm
  | explicit blob =>
    obtain rfl := Option.some.inj h
    cases i with
    | key blob' => exact mem_treeInsert
    | _ => exact (or_iff_left not_false).symm
  | sha1 digest | sha256 digest =>
    rw [revoke] at h
    split at h
    · obtain rfl := Option.some.inj h
      cases i <;> first | exact mem_map_treeInsert | exact (or_iff_left not_false).symm
    · cases h

theorem Revocation.Valid.revoke (h : r.Valid) (krl : SshKrl K) :
    ∃ krl', revoke krl r = some krl' := by
  cases r with
  | serialRange | sha1 | sha256 => exact ⟨_, dif_pos h⟩
  | keyId | explicit => exact ⟨_, rfl⟩

/-- **The calls of a file.** Valid calls succeed, and add what they name. -/
theorem revokeAll_revokes {rs : List (Revocation K)} (hvalid : ∀ r ∈ rs, r.Valid) (krl : SshKrl K) :
    ∃ krl', revokeAll krl rs = some krl' ∧ ∀ i, krl'.Revokes i ↔ krl.Revokes i ∨ ∃ r ∈ rs, r.Names i := by
  induction rs generalizing krl with
  | nil => exact ⟨krl, rfl, fun i => by simp⟩
  | cons r rs ih =>
    obtain ⟨k, hk⟩ := (hvalid r mem_cons_self).revoke krl
    obtain ⟨krl', hall, hrev⟩ := ih (fun r hr => hvalid r (mem_cons_of_mem _ hr)) k
    refine ⟨krl', ?_, fun i => ?_⟩
    · rw [revokeAll, hk]
      exact hall
    · rw [hrev, revoke_revokes hk, or_assoc]
      simp

end OpenSSHServerPN.Krl
