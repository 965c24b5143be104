import PortVpn.Keystore.Pem
import PortVpn.Config.CheckProfile
import PortVpn.Config.Composition
import PortVpn.Config.ConvertProfile
import PortVpn.Config.InlineFile
import PortVpn.Lib.Occurrences
import PortVpn.Lib.Utf8

/-!
# The certificates of the key store

A profile of the key store has no files for its certificate. `getKeyStoreCertificates` asks the key
chain for the chain of the user's certificate, reads the file of an authority if there is one, and
writes both as PEM objects, which `getConfigFile` puts into blocks. The key chain is asked again when
it fails with an assertion, and an embedded file of authorities may hold any number of certificates
with other text around them (`getCertificatesFromFile_inline`).
-/

set_option autoImplicit false

namespace PortVpn.Keystore

open PortVpn.Lib PortVpn.Config

/-! ## Certificates in a file -/

/-- A certificate, by the result of `getEncoded`: none when it throws. -/
structure Certificate where
  getEncoded : Option (List UInt8)
  deriving DecidableEq, Repr

/-- What the certificates of a file are read with. -/
structure Platform where
  /-- `CertificateFactory.generateCertificate` on a stream of bytes; none when it throws. -/
  generateCertificate : List UInt8 → Option Certificate
  /-- The bytes of a file; none when there is no such file. -/
  readFile : Text → Option (List UInt8)

/-- The marker in front of a certificate. -/
def BEGIN_CERTIFICATE : Text := "-----BEGIN CERTIFICATE-----".toList

/-- `String.indexOf`, in characters: the result is only used to cut the text at the place found. -/
def indexOf (target t : Text) (fromIndex : Nat) : Option Nat :=
  indexFrom target fromIndex (t.drop fromIndex)

/-- The loop of `getCertificatesFromFile`, with the texts that it gives to the factory. Every round
is for a later place, so that the length of the text bounds the rounds. -/
def certificateLoop (certfilename : Text) : Nat → Nat → List Text
  | 0, _ => []
  | n + 1, subIndex =>
      certfilename.drop subIndex ::
        match indexOf BEGIN_CERTIFICATE certfilename (subIndex + 1) with
        | none => []
        | some subIndex => if subIndex > 0 then certificateLoop certfilename n subIndex else []

/-- The texts that an embedded file is cut into. Without a marker it is read from its start. -/
def certificateTexts (certfilename : Text) : List Text :=
  certificateLoop certfilename (certfilename.length + 1)
    ((indexOf BEGIN_CERTIFICATE certfilename 0).getD 0)

/-- `X509Utils.getCertificatesFromFile`; none when it throws. -/
def getCertificatesFromFile (platform : Platform) (certfilename : Text) :
    Option (List Certificate) :=
  if isEmbedded certfilename then
    (certificateTexts certfilename).mapM fun t => platform.generateCertificate (Utf8.encode t)
  else do
    let inStream ← platform.readFile certfilename
    let cert ← platform.generateCertificate inStream
    return [cert]

/-! ## Certificates of the key chain -/

/-- How a call of the key chain can fail: with an exception, or with an assertion. -/
inductive AccessFailure where
  | exception
  | assertionError
  deriving DecidableEq, Repr

/-- What the key chain answers to one attempt; it may have no key and no chain. -/
structure Attempt (Key : Type) where
  getPrivateKey : Except AccessFailure (Option Key)
  getCertificateChain : Except AccessFailure (Option (List Certificate))

/-- The object of a certificate. -/
def certificateObject (encoded : List UInt8) : PemObject :=
  { type := "CERTIFICATE".toList, content := encoded }

/-- Certificates as PEM objects; none when one of them cannot be encoded. -/
def writeCertificates (certs : List Certificate) : Option Text :=
  (certs.mapM Certificate.getEncoded).map fun encoded =>
    encoded.flatMap fun cert => writeObject (certificateObject cert)

/-- The certificates behind the user's. The outer `none` is an exception, the inner one null. -/
def keystoreChain (mCaFilename : Option Text) (caChain : List Certificate) :
    Option (Option Text) :=
  if caChain.length ≤ 1 ∧ textIsEmpty mCaFilename then some none
  else (writeCertificates (caChain.drop 1)).map some

/-- The certificates of the file; exceptions are logged only. -/
def caout (platform : Platform) (mCaFilename : Option Text) : Option Text :=
  if textIsEmpty mCaFilename then none
  else (getCertificatesFromFile platform (mCaFilename.getD [])).bind writeCertificates

/-- What an attempt makes of a chain: the texts for `ca`, `extra` and `user`, or an exception. -/
def certificatesOf (platform : Platform) (mCaFilename : Option Text) (caChain : List Certificate) :
    Option (Option Text × Option Text × Text) := do
  let chain ← keystoreChain mCaFilename caChain
  let user ← writeCertificates (caChain.take 1)
  return match caout platform mCaFilename with
    | none => (chain, none, user)
    | some ca => (some ca, chain, user)

variable {Key : Type}

/-- The `try` block of `getKeyStoreCertificates`, with the field `mPrivateKey`. -/
def tryKeyChain (platform : Platform) (mCaFilename : Option Text) (attempt : Attempt Key)
    (mPrivateKey : Option Key) :
    Option Key × Except AccessFailure (Option Text × Option Text × Text) :=
  match attempt.getPrivateKey with
  | .error e => (mPrivateKey, .error e)
  | .ok mPrivateKey =>
      match attempt.getCertificateChain with
      | .error e => (mPrivateKey, .error e)
      | .ok none => (mPrivateKey, .error .exception)
      | .ok (some caChain) =>
          match certificatesOf platform mCaFilename caChain with
          | none => (mPrivateKey, .error .exception)
          | some ks => (mPrivateKey, .ok ks)

/-- `VpnProfile.getKeyStoreCertificates`. An assertion is answered by another attempt, as long as
there are tries. -/
def getKeyStoreCertificates (platform : Platform) (mCaFilename : Option Text) :
    (tries : Nat) → (attempts : Nat → Attempt Key) → (mPrivateKey : Option Key) →
      Option Key × Option (Option Text × Option Text × Text)
  | 0, attempts, mPrivateKey =>
      match tryKeyChain platform mCaFilename (attempts 0) mPrivateKey with
      | (mPrivateKey, .ok ks) => (mPrivateKey, some ks)
      | (mPrivateKey, .error _) => (mPrivateKey, none)
  | tries + 1, attempts, mPrivateKey =>
      match tryKeyChain platform mCaFilename (attempts 0) mPrivateKey with
      | (mPrivateKey, .ok ks) => (mPrivateKey, some ks)
      | (mPrivateKey, .error .exception) => (mPrivateKey, none)
      | (mPrivateKey, .error .assertionError) =>
          getKeyStoreCertificates platform mCaFilename tries (fun n => attempts (n + 1)) mPrivateKey

/-- The certificates as `getConfigFile` concatenates them: a null becomes text. -/
def keyStoreTexts (ks : Option Text × Option Text × Text) : Text × Option Text × Text :=
  (ks.1.getD "null".toList, ks.2.1, ks.2.2)

/-! ## The certificates of a bundle -/

theorem newline_notMem_begin : '\n' ∉ BEGIN_CERTIFICATE := by decide

theorem begin_certificate_ne : BEGIN_CERTIFICATE ≠ [] := by decide

theorem dash_mem_begin : '-' ∈ BEGIN_CERTIFICATE := by decide

/-- An object begins with the only marker in it. -/
theorem occurrences_object (encoded : List UInt8) (rest : Text) :
    occurrences BEGIN_CERTIFICATE (writeObject (certificateObject encoded) ++ rest) =
      (writeObject (certificateObject encoded) ++ rest) :: occurrences BEGIN_CERTIFICATE rest := by
  have hlines : ∀ line ∈ contentLines encoded ++ [END ++ "CERTIFICATE".toList ++ "-----".toList],
      ¬ BEGIN_CERTIFICATE <:+: line := by
    intro line hline hin
    rcases List.mem_append.1 hline with hline | hline
    · have hdash : '-' ∈ line := hin.subset dash_mem_begin
      exact (chars_of_mem_contentLines hline '-' hdash).2.2 rfl
    · obtain rfl := List.mem_singleton.1 hline
      exact absurd hin.length_le (by decide)
  have hobject : writeObject (certificateObject encoded) = BEGIN_CERTIFICATE ++ '\n' ::
      (contentLines encoded ++ [END ++ "CERTIFICATE".toList ++ "-----".toList]).flatMap
        (· ++ ['\n']) := by
    rw [writeObject_eq]
    rfl
  rw [hobject, List.append_assoc, List.cons_append,
    occurrences_target newline_notMem_begin begin_certificate_ne,
    occurrences_lines newline_notMem_begin begin_certificate_ne hlines]

/-- The loop cuts the text at every marker behind the place at which it starts. -/
theorem certificateLoop_eq {t : Text} {n subIndex : Nat} (h : t.length ≤ n + subIndex) :
    certificateLoop t (n + 1) subIndex =
      t.drop subIndex :: occurrences BEGIN_CERTIFICATE (t.drop (subIndex + 1)) := by
  induction n generalizing subIndex with
  | zero =>
      have hnil : t.drop (subIndex + 1) = [] := List.drop_eq_nil_of_le (by omega)
      rw [certificateLoop, indexOf, hnil]
      rfl
  | succ n ih =>
      rw [certificateLoop, indexOf]
      cases hindex : indexFrom BEGIN_CERTIFICATE (subIndex + 1) (t.drop (subIndex + 1)) with
      | none => rw [occurrences_of_indexFrom_none hindex]
      | some j =>
          obtain ⟨k, rfl, -, hocc⟩ := occurrences_of_indexFrom hindex
          dsimp only
          rw [if_pos (by omega), ih (by omega), hocc, List.drop_drop, List.drop_drop]
          rfl

/-- An embedded file is cut at its markers. -/
theorem certificateTexts_eq {t : Text} (h : occurrences BEGIN_CERTIFICATE t ≠ []) :
    certificateTexts t = occurrences BEGIN_CERTIFICATE t := by
  rw [certificateTexts, certificateLoop_eq (by omega), indexOf, List.drop_zero]
  cases hindex : indexFrom BEGIN_CERTIFICATE 0 t with
  | none => exact absurd (occurrences_of_indexFrom_none hindex) h
  | some j =>
      obtain ⟨k, rfl, -, hocc⟩ := occurrences_of_indexFrom hindex
      rw [hocc, Option.getD_some, Nat.zero_add]

/-- Certificates with other text in front of each of them, and behind the last one. -/
def bundle : List (Text × List UInt8) → Text → Text
  | [], last => last
  | (gap, cert) :: certs, last =>
      gap ++ (writeObject (certificateObject cert) ++ bundle certs last)

/-- The factory reads a certificate from its PEM object at the start of a stream, whatever follows
it. -/
def Platform.ReadsPem (platform : Platform) (valid : List UInt8 → Prop) : Prop :=
  ∀ cert rest, valid cert →
    platform.generateCertificate (Utf8.encode (writeObject (certificateObject cert) ++ rest)) =
      some ⟨some cert⟩

section Bundle

variable {platform : Platform} {valid : List UInt8 → Prop} {certs : List (Text × List UInt8)}
  {last : Text}

/-- Every certificate begins with the marker, and the text around the certificates has none. -/
structure WellBundled (valid : List UInt8 → Prop) (certs : List (Text × List UInt8)) (last : Text) :
    Prop where
  gaps : ∀ c ∈ certs, Clear BEGIN_CERTIFICATE c.1
  last : Clear BEGIN_CERTIFICATE last
  valid : ∀ c ∈ certs, valid c.2

theorem mapM_occurrences_bundle (hplatform : platform.ReadsPem valid)
    (h : WellBundled valid certs last) :
    (occurrences BEGIN_CERTIFICATE (bundle certs last)).mapM
        (fun t => platform.generateCertificate (Utf8.encode t)) =
      some (certs.map fun c => ⟨some c.2⟩) := by
  induction certs with
  | nil =>
      have hlast := occurrences_append h.last []
      rw [List.append_nil] at hlast
      rw [bundle, hlast]
      rfl
  | cons c certs ih =>
      obtain ⟨gap, cert⟩ := c
      obtain ⟨hgap, hgaps⟩ := List.forall_mem_cons.1 h.gaps
      obtain ⟨hcert, hcerts⟩ := List.forall_mem_cons.1 h.valid
      rw [bundle, occurrences_append hgap, occurrences_object, List.mapM_cons,
        hplatform cert _ hcert, ih ⟨hgaps, h.last, hcerts⟩]
      rfl

theorem occurrences_bundle_ne_nil (hne : certs ≠ []) (hgaps : ∀ c ∈ certs, Clear BEGIN_CERTIFICATE c.1) :
    occurrences BEGIN_CERTIFICATE (bundle certs last) ≠ [] := by
  obtain ⟨⟨gap, cert⟩, certs, rfl⟩ := List.exists_cons_of_ne_nil hne
  rw [bundle, occurrences_append (hgaps _ List.mem_cons_self), occurrences_object]
  exact List.cons_ne_nil _ _

theorem clear_inline : Clear BEGIN_CERTIFICATE INLINE_TAG :=
  clear_of_notMem dash_mem_begin (by decide) rfl (by decide)

/-- An embedded file with certificates, and whatever other text around them, gives all of them. -/
theorem getCertificatesFromFile_inline (hplatform : platform.ReadsPem valid) (hne : certs ≠ [])
    (h : WellBundled valid certs last) :
    getCertificatesFromFile platform (INLINE_TAG ++ bundle certs last) =
      some (certs.map fun c => ⟨some c.2⟩) := by
  have hocc : occurrences BEGIN_CERTIFICATE (INLINE_TAG ++ bundle certs last) =
      occurrences BEGIN_CERTIFICATE (bundle certs last) := occurrences_append clear_inline _
  have hnil : occurrences BEGIN_CERTIFICATE (bundle certs last) ≠ [] :=
    occurrences_bundle_ne_nil hne h.gaps
  rw [getCertificatesFromFile, if_pos (isEmbedded_inline _), certificateTexts_eq (by rwa [hocc]),
    hocc, mapM_occurrences_bundle hplatform h]

end Bundle

/-! ## Asking again -/

namespace Attempt

/-- An attempt after which the key chain is asked again. -/
def Asserts (a : Attempt Key) : Prop :=
  a.getPrivateKey = .error .assertionError ∨
    (∃ key, a.getPrivateKey = .ok key) ∧ a.getCertificateChain = .error .assertionError

/-- An attempt that returns a key, and a chain of which certificates are made. -/
def Yields (platform : Platform) (mCaFilename : Option Text) (a : Attempt Key) (key : Option Key)
    (texts : Option Text × Option Text × Text) : Prop :=
  ∃ caChain, a.getPrivateKey = .ok key ∧ a.getCertificateChain = .ok (some caChain) ∧
    certificatesOf platform mCaFilename caChain = some texts

end Attempt

section Retry

variable {platform : Platform} {mCaFilename : Option Text} {attempts : Nat → Attempt Key}
  {key : Option Key} {texts : Option Text × Option Text × Text} {tries : Nat}

theorem tryKeyChain_eq_ok {a : Attempt Key} (old : Option Key) :
    tryKeyChain platform mCaFilename a old = (key, .ok texts) ↔
      a.Yields platform mCaFilename key texts := by
  rw [tryKeyChain, Attempt.Yields]
  cases a.getPrivateKey with
  | error e => simp
  | ok privateKey =>
      cases a.getCertificateChain with
      | error e => simp
      | ok caChain =>
          cases caChain with
          | none => simp
          | some caChain =>
              dsimp only
              cases hks : certificatesOf platform mCaFilename caChain with
              | none => simp [hks]
              | some ks => simp [hks]

theorem tryKeyChain_asserts {a : Attempt Key} (old : Option Key) :
    (tryKeyChain platform mCaFilename a old).2 = .error .assertionError ↔ a.Asserts := by
  rw [tryKeyChain, Attempt.Asserts]
  cases a.getPrivateKey with
  | error e => simp
  | ok privateKey =>
      cases a.getCertificateChain with
      | error e => simp
      | ok caChain =>
          cases caChain with
          | none => simp
          | some caChain =>
              dsimp only
              cases certificatesOf platform mCaFilename caChain with
              | none => simp
              | some ks => simp

/-- What counts is the first attempt that does not assert. -/
theorem exists_first_iff {asserts yields : Nat → Prop} {n : Nat} (h : ¬ asserts 0) :
    (∃ i ≤ n, (∀ j < i, asserts j) ∧ yields i) ↔ yields 0 := by
  constructor
  · rintro ⟨i, -, hbefore, hi⟩
    cases i with
    | zero => exact hi
    | succ i => exact absurd (hbefore 0 (Nat.succ_pos i)) h
  · exact fun h0 => ⟨0, Nat.zero_le n, fun j hj => absurd hj (Nat.not_lt_zero j), h0⟩

theorem exists_first_succ_iff {asserts yields : Nat → Prop} {n : Nat} (h : asserts 0)
    (h0 : ¬ yields 0) :
    (∃ i ≤ n + 1, (∀ j < i, asserts j) ∧ yields i) ↔
      ∃ i ≤ n, (∀ j < i, asserts (j + 1)) ∧ yields (i + 1) := by
  constructor
  · rintro ⟨i, hi, hbefore, hyields⟩
    cases i with
    | zero => exact absurd hyields h0
    | succ i =>
        exact ⟨i, Nat.le_of_succ_le_succ hi, fun j hj => hbefore (j + 1) (Nat.succ_lt_succ hj),
          hyields⟩
  · rintro ⟨i, hi, hbefore, hyields⟩
    refine ⟨i + 1, Nat.succ_le_succ hi, fun j hj => ?_, hyields⟩
    cases j with
    | zero => exact h
    | succ j => exact hbefore j (Nat.lt_of_succ_lt_succ hj)

theorem Attempt.Asserts.not_yields {a : Attempt Key} (h : a.Asserts) :
    ¬ a.Yields platform mCaFilename key texts := by
  rintro ⟨caChain, hkey, hchain, -⟩
  rcases h with h | ⟨-, h⟩
  · rw [hkey] at h
    exact nomatch h
  · rw [hchain] at h
    exact nomatch h

/-- **Asking the key chain again**: certificates are returned exactly if the first attempt that does
not assert yields them, and if it is in time; the private key is then the one of this attempt. -/
theorem getKeyStoreCertificates_eq_some (old : Option Key) :
    getKeyStoreCertificates platform mCaFilename tries attempts old = (key, some texts) ↔
      ∃ i ≤ tries, (∀ j < i, (attempts j).Asserts) ∧
        (attempts i).Yields platform mCaFilename key texts := by
  induction tries generalizing attempts old with
  | zero =>
      have hzero : (∃ i ≤ 0, (∀ j < i, (attempts j).Asserts) ∧
          (attempts i).Yields platform mCaFilename key texts) ↔
          (attempts 0).Yields platform mCaFilename key texts := by simp
      rw [getKeyStoreCertificates, hzero, ← tryKeyChain_eq_ok old]
      split
      · rename_i k ks heq
        simp [heq]
      · rename_i k e heq
        simp [heq]
  | succ tries ih =>
      rw [getKeyStoreCertificates]
      have hasserts : (tryKeyChain platform mCaFilename (attempts 0) old).2 =
          .error .assertionError ↔ _ := tryKeyChain_asserts old
      split
      · rename_i k ks heq
        rw [heq] at hasserts
        rw [exists_first_iff (by simp [← hasserts]), ← tryKeyChain_eq_ok old, heq]
        simp
      · rename_i k heq
        rw [heq] at hasserts
        rw [exists_first_iff (by simp [← hasserts]), ← tryKeyChain_eq_ok old, heq]
        simp
      · rename_i k heq
        have h := hasserts.1 (by rw [heq])
        rw [exists_first_succ_iff h h.not_yields, ih]

end Retry

/-! ## The blocks of the configuration file -/

/-- The PEM objects of certificates. -/
def pemText (certs : List (List UInt8)) : Text :=
  certs.flatMap fun cert => writeObject (certificateObject cert)

theorem writeCertificates_encoded (certs : List (List UInt8)) :
    writeCertificates (certs.map fun cert => ⟨some cert⟩) = some (pemText certs) := by
  have hmapM : (certs.map fun cert => Certificate.mk (some cert)).mapM Certificate.getEncoded =
      some certs := by
    induction certs with
    | nil => rfl
    | cons cert certs ih =>
        rw [List.map_cons, List.mapM_cons, ih]
        rfl
  rw [writeCertificates, hmapM]
  rfl

theorem certificateObject_wellFormed {cert : List UInt8} (h : cert ≠ []) :
    (certificateObject cert).WellFormed where
  type_ne := (by decide : "CERTIFICATE".toList ≠ [])
  type_dash := (by decide : '-' ∉ "CERTIFICATE".toList)
  type_colon := (by decide : ':' ∉ "CERTIFICATE".toList)
  type_unbroken := (by decide : Unbroken "CERTIFICATE".toList)
  headers := fun _ hdr => nomatch hdr
  content := h

theorem plain_of_mem_encode {bs : List UInt8} {c : Char} (h : c ∈ encode bs) : c ≠ '<' ∧ c ≠ '\r' := by
  have hall : ∀ d < 64, letter d ≠ '<' ∧ letter d ≠ '\r' := by decide +kernel
  rw [encode_eq, List.mem_append, List.mem_map] at h
  rcases h with ⟨d, hd, rfl⟩ | h
  · exact hall d (SixBits.lt_of_mem_toDigits d hd)
  · rw [List.eq_of_mem_replicate h]
    decide

/-- No tag begins in a PEM text, and its lines end with a line feed only. -/
theorem plain_of_mem_pemText {certs : List (List UInt8)} {c : Char} (h : c ∈ pemText certs) :
    c ≠ '<' ∧ c ≠ '\r' := by
  obtain ⟨cert, -, hc⟩ := List.mem_flatMap.1 h
  rw [writeObject_eq] at hc
  obtain ⟨line, hline, hc⟩ := List.mem_flatMap.1 hc
  rcases List.mem_append.1 hc with hc | hc
  · have hends : ∀ line ∈ [BEGIN_CERTIFICATE, END ++ "CERTIFICATE".toList ++ "-----".toList],
        ∀ c ∈ line, c ≠ '<' ∧ c ≠ '\r' := by decide
    rcases List.mem_cons.1 hline with rfl | hline
    · exact hends _ List.mem_cons_self c hc
    · rcases List.mem_append.1 hline with hline | hline
      · exact plain_of_mem_encode (mem_of_mem_cutLines hline hc)
      · exact hends line (List.mem_cons_of_mem _ hline) c hc
  · rw [List.mem_singleton.1 hc]
    decide

/-- A block as `getConfigFile` writes it for the key store. -/
def block (t body : Text) : Text :=
  "<".toList ++ t ++ ">\n".toList ++ body ++ "\n</".toList ++ t ++ ">\n".toList

theorem mem_of_mem_splitOn {s l : Text} {c : Char} (hl : l ∈ s.splitOn '\n') (hc : c ∈ l) : c ∈ s := by
  have hflat : c ∈ joinLines (s.splitOn '\n') ++ ['\n'] := by
    rw [joinLines_concat _ (List.splitOn_ne_nil '\n' s)]
    exact List.mem_flatMap.2 ⟨l, hl, List.mem_append_left _ hc⟩
  rw [joinLines_splitOn] at hflat
  rcases List.mem_append.1 hflat with h | h
  · exact h
  · rw [List.mem_singleton.1 h] at hc
    exact absurd hc (newline_notMem_of_mem_splitOn hl)

theorem trim_ne_endtag {t line : Text} (h : '<' ∉ line) : trim line ≠ endtag t := by
  intro heq
  exact h (mem_of_mem_trim (heq ▸ List.mem_cons_self))

/-- A block is kept as the inline file of its option, whatever has been read before. -/
theorem readOn_block {t body : Text} (ht : OneWord t) (htag : Unbroken t)
    (hbody : ∀ c ∈ body, c ≠ '<' ∧ c ≠ '\r') (p : ConfigParser) (rest : Text) :
    p.readOn (block t body ++ rest) = (p.keep (.option [t, INLINE_TAG ++ body])).readOn rest := by
  have hbreak : ∀ c : Char, c ∉ t → c ≠ '<' → c ≠ '>' → c ≠ '/' →
      c ∉ startLine t ∧ c ∉ endtag t := by
    intro c hc h₁ h₂ h₃
    simp [startLine, endtag, hc, h₁, h₂, h₃]
  have hn := hbreak '\n' htag.1 (by decide) (by decide) (by decide)
  have hr := hbreak '\r' htag.2 (by decide) (by decide) (by decide)
  have hblock : block t body = startLine t ++ '\n' :: (body ++ '\n' :: (endtag t ++ ['\n'])) := by
    simp [block, startLine, endtag]
  have hlines : readLines (block t body) = startLine t :: (body.splitOn '\n' ++ endtag t :: []) := by
    rw [hblock, readLines_line ⟨hn.1, hr.1⟩, readLines_body fun h => (hbody _ h).2 rfl,
      readLines_line ⟨hn.2, hr.2⟩]
    rfl
  have hend : ∀ l ∈ body.splitOn '\n', trim l ≠ endtag t := by
    intro l hl
    exact trim_ne_endtag fun hmem => (hbody _ (mem_of_mem_splitOn hl hmem)).1 rfl
  have hwhole : WholeLines (block t body) := by
    have hnewline : block t body = (startLine t ++ '\n' :: (body ++ '\n' :: endtag t)) ++ "\n".toList := by
      simp [hblock]
    rw [hnewline]
    exact wholeLines_newline _
  have hentries : readEntries (readLines (block t body)).length (readLines (block t body)) =
      .ok [.option [t, INLINE_TAG ++ body]] := by
    rw [hlines, List.length_cons, readEntries_block ht hend, joinLines_splitOn]
    cases (body.splitOn '\n' ++ [endtag t]).length with
    | zero => rfl
    | succ n => rfl
  exact readOn_append p hwhole hentries

/-! ## Reading the certificates back -/

/-- The option has one argument, and its embedded content is a PEM file of these certificates. -/
def HasCertificates (p : ConfigParser) (name : String) (certs : List (List UInt8)) : Prop :=
  ∃ data, p.options.find name = some [[name.toList, data]] ∧
    readPemObjects (certs.length + 1) (readLines (getEmbeddedContent data)) =
      .ok (certs.map (fun cert => some (certificateObject cert)) ++ [none])

theorem readPemObjects_pemText {certs : List (List UInt8)} (h : ∀ cert ∈ certs, cert ≠ []) :
    readPemObjects (certs.length + 1) (readLines (getEmbeddedContent (INLINE_TAG ++ pemText certs))) =
      .ok (certs.map (fun cert => some (certificateObject cert)) ++ [none]) := by
  have hobjs : ∀ obj ∈ certs.map certificateObject, obj.WellFormed := by
    intro obj hobj
    obtain ⟨cert, hcert, rfl⟩ := List.mem_map.1 hobj
    exact certificateObject_wellFormed (h cert hcert)
  have hpem : pemText certs = (certs.map certificateObject).flatMap writeObject := by
    rw [pemText, List.flatMap_map]
  have hread := readPemObjects_objectLines hobjs
  rw [List.length_map, List.map_map] at hread
  rw [getEmbeddedContent_inline, hpem, readLines_writeObjects hobjs, hread]
  rfl

/-- The options that a configuration with these certificates has. -/
def keystoreOptions (ca : Text) (extra : Option Text) (user : Text) : Options :=
  [("ca".toList, [["ca".toList, INLINE_TAG ++ ca]])] ++
    (match extra with
     | some certs => [("extra-certs".toList, [["extra-certs".toList, INLINE_TAG ++ certs]])]
     | none => []) ++
    [("cert".toList, [["cert".toList, INLINE_TAG ++ user]]),
      ("management-external-key".toList, [["management-external-key".toList]])]

theorem parseConfig_keystoreSection {ctx : Context} {ca user : List (List UInt8)}
    {extra : Option (List (List UInt8))}
    (h : ctx.keyStoreCertificates = some (pemText ca, extra.map pemText, pemText user)) :
    parseConfig (VpnProfile.keystoreSection ctx false) =
      .ok ⟨keystoreOptions (pemText ca) (extra.map pemText) (pemText user), []⟩ := by
  have hcomment : parseConfig "### From Keystore ####\n".toList = .ok {} := rfl
  have hmanagement : ∀ p : ConfigParser, p.readOn "management-external-key\n".toList =
      .ok (p.keep (.option ["management-external-key".toList])) := fun _ => rfl
  have hblock : ∀ (t : Text) (certs : List (List UInt8)), OneWord t → Unbroken t →
      ∀ (p : ConfigParser) (rest : Text), p.readOn (block t (pemText certs) ++ rest) =
        (p.keep (.option [t, INLINE_TAG ++ pemText certs])).readOn rest :=
    fun t certs ht htag => readOn_block ht htag fun _ hc => plain_of_mem_pemText hc
  have hsection : VpnProfile.keystoreSection ctx false = "### From Keystore ####\n".toList ++
      (block "ca".toList (pemText ca) ++
        (extra.elim [] (fun certs => block "extra-certs".toList (pemText certs)) ++
          (block "cert".toList (pemText user) ++ "management-external-key\n".toList))) := by
    rw [VpnProfile.keystoreSection, if_neg (by simp), h]
    cases extra <;> simp [block]
  have hca : OneWord "ca".toList := by unfold OneWord; decide
  have hextra : OneWord "extra-certs".toList := by unfold OneWord; decide
  have hcert : OneWord "cert".toList := by unfold OneWord; decide
  rw [hsection, parseConfig_append (.inr rfl) (by decide) hcomment, hblock _ _ hca (by decide)]
  cases extra with
  | none =>
      rw [Option.elim_none, List.nil_append, hblock _ _ hcert (by decide), hmanagement]
      rfl
  | some certs =>
      rw [Option.elim_some, hblock _ _ hextra (by decide), hblock _ _ hcert (by decide),
        hmanagement]
      rfl

/-- The file of authorities: there is none, or it is embedded and has these certificates. -/
inductive CaFile (valid : List UInt8 → Prop) : Option Text → Option (List (List UInt8)) → Prop
  | none {mCaFilename : Option Text} (h : textIsEmpty mCaFilename) : CaFile valid mCaFilename none
  | bundle {certs : List (Text × List UInt8)} {last : Text} (hne : certs ≠ [])
      (h : WellBundled valid certs last) :
      CaFile valid (some (INLINE_TAG ++ bundle certs last)) (some (certs.map Prod.snd))

section ReadBack

variable {platform : Platform} {valid : List UInt8 → Prop} {mCaFilename : Option Text}
  {cas : Option (List (List UInt8))} {user : List UInt8} {rest : List (List UInt8)}

theorem not_textIsEmpty_inline (s : Text) : textIsEmpty (some (INLINE_TAG ++ s)) = false := rfl

theorem caout_of_caFile (hplatform : platform.ReadsPem valid) (h : CaFile valid mCaFilename cas) :
    caout platform mCaFilename = cas.map pemText := by
  cases h with
  | none h => rw [caout, if_pos h, Option.map_none]
  | bundle hne h =>
      rename_i certs last
      have hmap : (certs.map fun c => Certificate.mk (some c.2)) =
          (certs.map Prod.snd).map fun cert => ⟨some cert⟩ := by
        rw [List.map_map]
        rfl
      rw [caout, not_textIsEmpty_inline, if_neg Bool.false_ne_true, Option.getD_some,
        getCertificatesFromFile_inline hplatform hne h, hmap, Option.bind_some,
        writeCertificates_encoded, Option.map_some]

/-- A chain that is written, unless the only certificate of an authority would be missing. -/
theorem certificatesOf_chain (hplatform : platform.ReadsPem valid)
    (hca : CaFile valid mCaFilename cas) (hrest : cas = none → rest ≠ []) :
    certificatesOf platform mCaFilename ((user :: rest).map fun cert => ⟨some cert⟩) =
      some (some (pemText (cas.getD rest)), cas.map fun _ => pemText rest, pemText [user]) := by
  have hchain : keystoreChain mCaFilename ((user :: rest).map fun cert => ⟨some cert⟩) =
      some (some (pemText rest)) := by
    rw [keystoreChain, if_neg, List.map_cons, List.drop_one, List.tail_cons,
      writeCertificates_encoded, Option.map_some]
    rintro ⟨hlen, hempty⟩
    cases hca with
    | none h =>
        obtain ⟨cert, certs, rfl⟩ := List.exists_cons_of_ne_nil (hrest rfl)
        simp at hlen
    | bundle hne h =>
        rw [not_textIsEmpty_inline] at hempty
        exact nomatch hempty
  have huser : writeCertificates (((user :: rest).map fun cert => Certificate.mk (some cert)).take 1) =
      some (pemText [user]) := writeCertificates_encoded [user]
  rw [certificatesOf, hchain, huser, caout_of_caFile hplatform hca]
  cases cas <;> rfl

end ReadBack

/-- A factory that reads the first PEM object of a stream. -/
def pemPlatform : Platform where
  generateCertificate := fun inStream =>
    match readPemObject (readLines (Utf8.decode inStream)) with
    | .ok (some obj, _) => some ⟨some obj.content⟩
    | _ => none
  readFile := fun _ => none

theorem pemPlatform_readsPem : pemPlatform.ReadsPem (· ≠ []) := by
  intro cert rest hcert
  have hwell := certificateObject_wellFormed hcert
  rw [pemPlatform]
  dsimp only
  rw [Utf8.decode_encode, readLines_writeObject hwell, readPemObject_objectLines hwell]
  rfl

/-- A key chain that asserts once. -/
def secondAttempt (n : Nat) : Attempt Unit :=
  if n = 0 then ⟨.error .assertionError, .ok none⟩
  else ⟨.ok (some ()), .ok (some [⟨some [1, 2]⟩, ⟨some [3]⟩])⟩

/-- A file with a certificate behind a comment. -/
def commentedCa : Option Text :=
  some (INLINE_TAG ++ bundle [("subject: a\n".toList, [4, 5])] "\n".toList)

end PortVpn.Keystore
