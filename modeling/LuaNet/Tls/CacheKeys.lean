import Mathlib.Data.List.TakeWhile
import LuaNet.Tls.CtxOptions

/-! The keys of the caches. Keys of contexts, and of sessions within a context, are equal exactly
when the options that go into them are, as they were parsed. -/

namespace LuaNet.Tls

open LuaNet.Lib

def TlsProtocol.index : TlsProtocol → Nat
  | .default => 0
  | .tlsv1 => 1
  | .tlsv1_0 => 2
  | .tlsv1_1 => 3
  | .tlsv1_2 => 4
  | .tlsv1_3 => 5

def TlsCipherSuite.index : TlsCipherSuite → Nat
  | .default => 0
  | .secure => 1
  | .legacy => 2
  | .all => 3

def CtxOpts.toClientOpts (opts : CtxOpts) : ClientOpts :=
  { cert := opts.cert.map CString.bytes
    key := opts.key.map CString.bytes
    protocol := opts.protocol.index
    cipher := opts.cipher.index
    alpn := opts.alpn.bytes
    verifyDepth := (opts.verifyDepth.map UInt.val).getD (-1)
    cafile := opts.cafile.map CString.bytes
    capath := opts.capath.map CString.bytes
    crls := opts.crls.map SizedBytes.bytes }

def clientCacheKey (opts : CtxOpts) : Bytes := pushCacheKey opts.toClientOpts

def serverTag : Bytes := [115, 101, 114, 118, 101, 114]

def cBytes (s : Option CString) : Bytes :=
  ((s.map CString.bytes).getD []).takeWhile (· != 0)

def intBytes (n : Int) : Bytes := leBytes 4 (n % 2 ^ 32).toNat

def integerBytes (n : Int) : Bytes := leBytes 8 (n % 2 ^ 64).toNat

def serverCacheKey (opts : ServerOpts) : Bytes :=
  blob serverTag ++ blob (cBytes opts.cert) ++ blob (cBytes opts.key) ++
    blob (intBytes opts.protocol.index) ++ blob (intBytes opts.cipher.index) ++
    blob opts.alpn.bytes ++ blob (integerBytes opts.sessTimeout.val) ++
    blob (intBytes opts.preferClientCiphers.toNat) ++
    blob (intBytes ((opts.verifyMode.map VerifyMode.flags).getD (-1))) ++
    blob (intBytes ((opts.verifyDepth.map UInt.val).getD (-1))) ++
    keyAddOptional (opts.cafile.map CString.bytes) ++
    keyAddOptional (opts.capath.map CString.bytes) ++
    blob [if opts.crls.isSome then 1 else 0] ++ blob ((opts.crls.map SizedBytes.bytes).getD [])

/-- The options that go into a key: all that are not about the cache itself. -/
def CtxOpts.keyed (opts : CtxOpts) : CtxOpts := { opts with cache := none }

/-- The SNI callback belongs to the server and not to its context. -/
def ServerOpts.keyed (opts : ServerOpts) : ServerOpts :=
  { opts with cache := none, sniCallback := false }

theorem CString.bytes_inj {a b : CString} (h : a.bytes = b.bytes) : a = b := by
  cases a
  cases b
  rw [CString.mk.injEq]
  exact SizedBytes.ext h

theorem CString.takeWhile_bytes (s : CString) : s.bytes.takeWhile (· != 0) = s.bytes := by
  apply List.takeWhile_eq_self_iff.mpr
  intro b hb
  have hne : b ≠ 0 := fun h => s.noNul (h ▸ hb)
  simpa using hne

theorem AlpnWire.bytes_inj {a b : AlpnWire} (h : a.bytes = b.bytes) : a = b := by
  cases a
  cases b
  rwa [AlpnWire.mk.injEq]

theorem optionBytes_inj {a b : Option CString} (h : a.map CString.bytes = b.map CString.bytes) :
    a = b := Option.map_injective (fun _ _ => CString.bytes_inj) h

theorem integerBytes_inj {a b : Int} (ha : -2 ^ 63 ≤ a ∧ a < 2 ^ 63) (hb : -2 ^ 63 ≤ b ∧ b < 2 ^ 63)
    (h : integerBytes a = integerBytes b) : a = b := by
  have hsame := leBytes_inj (by omega) (by omega) h
  omega

theorem intBytes_inj {a b : Int} (ha : -2 ^ 31 ≤ a ∧ a < 2 ^ 31) (hb : -2 ^ 31 ≤ b ∧ b < 2 ^ 31)
    (h : intBytes a = intBytes b) : a = b := by
  have hsame := leBytes_inj (by omega) (by omega) h
  omega

theorem intBytes_natCast {n : Nat} (hn : n < 2 ^ 32) : intBytes n = leBytes 4 n := by
  rw [intBytes, Int.emod_eq_of_lt (by omega) (by omega), Int.toNat_natCast]

theorem leBytes4_fits (n : Nat) : (leBytes 4 n).length < 2 ^ 64 := by
  rw [leBytes_length]
  omega

theorem leBytes8_fits (n : Nat) : (leBytes 8 n).length < 2 ^ 64 := by
  rw [leBytes_length]
  omega

theorem TlsProtocol.index_inj {a b : TlsProtocol} (h : a.index = b.index) : a = b := by
  revert h
  cases a <;> cases b <;> decide

theorem TlsProtocol.index_lt (p : TlsProtocol) : p.index < 6 := by cases p <;> decide

theorem TlsProtocol.intBytes_index (p : TlsProtocol) : intBytes p.index = leBytes 4 p.index := by
  have hlt := p.index_lt
  exact intBytes_natCast (by omega)

theorem TlsCipherSuite.index_inj {a b : TlsCipherSuite} (h : a.index = b.index) : a = b := by
  revert h
  cases a <;> cases b <;> decide

theorem TlsCipherSuite.index_lt (c : TlsCipherSuite) : c.index < 4 := by cases c <;> decide

theorem TlsCipherSuite.intBytes_index (c : TlsCipherSuite) :
    intBytes c.index = leBytes 4 c.index := by
  have hlt := c.index_lt
  exact intBytes_natCast (by omega)

theorem UInt.val_inj {a b : UInt} (h : a.val = b.val) : a = b := by
  cases a
  cases b
  rwa [UInt.mk.injEq]

theorem LuaInteger.val_inj {a b : LuaInteger} (h : a.val = b.val) : a = b := by
  cases a
  cases b
  rwa [LuaInteger.mk.injEq]

theorem depth_inj {a b : Option UInt}
    (h : (a.map UInt.val).getD (-1) = (b.map UInt.val).getD (-1)) : a = b := by
  rcases a with _ | a <;> rcases b with _ | b
  · rfl
  · have hlower := b.lower
    simp only [Option.map_none, Option.getD_none, Option.map_some, Option.getD_some] at h
    omega
  · have hlower := a.lower
    simp only [Option.map_none, Option.getD_none, Option.map_some, Option.getD_some] at h
    omega
  · rw [UInt.val_inj h]

theorem depth_range (d : Option UInt) :
    -1 ≤ (d.map UInt.val).getD (-1) ∧ (d.map UInt.val).getD (-1) < 2 ^ 31 := by
  rcases d with _ | d
  · decide
  · have hlower := d.lower
    have hupper := d.upper
    simp only [Option.map_some, Option.getD_some]
    omega

theorem mode_inj {a b : Option VerifyMode}
    (h : (a.map VerifyMode.flags).getD (-1) = (b.map VerifyMode.flags).getD (-1)) : a = b := by
  revert h
  rcases a with _ | _ | _ | _ <;> rcases b with _ | _ | _ | _ <;> decide

theorem mode_range (m : Option VerifyMode) :
    -1 ≤ (m.map VerifyMode.flags).getD (-1) ∧ (m.map VerifyMode.flags).getD (-1) < 4 := by
  rcases m with _ | _ | _ | _ <;> decide

section Fields

/-! One lemma for each kind of field: it is told from what comes behind it. -/

theorem path_delimits :
    SelfDelimiting fun path : Option CString => keyAddOptional (path.map CString.bytes) := by
  intro a b x y h
  simp only [keyAddOptional, List.cons_append, List.cons.injEq] at h
  rcases a with _ | a <;> rcases b with _ | b
  · exact ⟨rfl, (blob_append_inj (by decide) (by decide) h.2).2⟩
  · exact absurd h.1 (by simp)
  · exact absurd h.1 (by simp)
  · simp only [Option.map_some, Option.getD_some, CString.takeWhile_bytes] at h
    obtain ⟨hbytes, hrest⟩ := blob_append_inj a.text.fits b.text.fits h.2
    rw [CString.bytes_inj hbytes]
    exact ⟨rfl, hrest⟩

theorem text_delimits : SelfDelimiting fun path : CString => blob (cBytes (some path)) := by
  have hbytes (s : CString) : cBytes (some s) = s.bytes := s.takeWhile_bytes
  apply SelfDelimiting.blob
  · intro a b h
    rw [hbytes, hbytes] at h
    exact CString.bytes_inj h
  · intro a
    rw [hbytes]
    exact a.text.fits

theorem int_delimits {α : Type} {f : α → Int} (hinj : ∀ ⦃a b⦄, f a = f b → a = b)
    (hrange : ∀ a, -2 ^ 31 ≤ f a ∧ f a < 2 ^ 31) : SelfDelimiting fun a => blob (intBytes (f a)) := by
  apply SelfDelimiting.blob
  · intro a b h
    exact hinj (intBytes_inj (hrange a) (hrange b) h)
  · exact fun a => leBytes4_fits _

theorem integer_delimits {α : Type} {f : α → Int} (hinj : ∀ ⦃a b⦄, f a = f b → a = b)
    (hrange : ∀ a, -2 ^ 63 ≤ f a ∧ f a < 2 ^ 63) :
    SelfDelimiting fun a => blob (integerBytes (f a)) := by
  apply SelfDelimiting.blob
  · intro a b h
    exact hinj (integerBytes_inj (hrange a) (hrange b) h)
  · exact fun a => leBytes8_fits _

theorem protocol_delimits : SelfDelimiting fun p : TlsProtocol => blob (intBytes p.index) := by
  apply int_delimits
  · exact fun _ _ h => TlsProtocol.index_inj (Int.ofNat.inj h)
  · intro p
    have hlt := p.index_lt
    omega

theorem cipher_delimits : SelfDelimiting fun c : TlsCipherSuite => blob (intBytes c.index) := by
  apply int_delimits
  · exact fun _ _ h => TlsCipherSuite.index_inj (Int.ofNat.inj h)
  · intro c
    have hlt := c.index_lt
    omega

theorem alpn_delimits : SelfDelimiting fun w : AlpnWire => blob w.bytes := by
  apply SelfDelimiting.blob
  · exact fun _ _ => AlpnWire.bytes_inj
  · intro w
    have hfits := w.fits
    omega

theorem depth8_delimits : SelfDelimiting fun d : Option UInt =>
    blob (integerBytes ((d.map UInt.val).getD (-1))) := by
  apply integer_delimits
  · exact fun _ _ => depth_inj
  · intro d
    have hrange := depth_range d
    omega

theorem depth4_delimits : SelfDelimiting fun d : Option UInt =>
    blob (intBytes ((d.map UInt.val).getD (-1))) := by
  apply int_delimits
  · exact fun _ _ => depth_inj
  · intro d
    have hrange := depth_range d
    omega

theorem mode_delimits : SelfDelimiting fun m : Option VerifyMode =>
    blob (intBytes ((m.map VerifyMode.flags).getD (-1))) := by
  apply int_delimits
  · exact fun _ _ => mode_inj
  · intro m
    have hrange := mode_range m
    omega

theorem timeout_delimits : SelfDelimiting fun n : LuaInteger => blob (integerBytes n.val) := by
  apply integer_delimits
  · exact fun _ _ => LuaInteger.val_inj
  · exact fun n => ⟨n.lower, n.upper⟩

theorem flag_delimits : SelfDelimiting fun b : Bool => blob (intBytes b.toNat) := by
  apply SelfDelimiting.blob
  · intro a b
    cases a <;> cases b <;> decide
  · exact fun b => leBytes4_fits _

theorem crls_delimits : SelfDelimiting fun crls : Option LuaString =>
    blob [if crls.isSome then 1 else 0] ++ blob ((crls.map SizedBytes.bytes).getD []) := by
  intro a b x y h
  simp only [List.append_assoc] at h
  obtain ⟨hflag, h⟩ := blob_append_inj (by simp) (by simp) h
  rcases a with _ | a <;> rcases b with _ | b
  · exact ⟨rfl, (blob_append_inj (by decide) (by decide) h).2⟩
  · exact absurd hflag (by simp)
  · exact absurd hflag (by simp)
  · obtain ⟨hbytes, hrest⟩ := blob_append_inj a.fits b.fits h
    rw [SizedBytes.ext hbytes]
    exact ⟨rfl, hrest⟩

end Fields

theorem clientCacheKey_eq_iff_keyed (a b : CtxOpts) :
    clientCacheKey a = clientCacheKey b ↔ a.keyed = b.keyed := by
  constructor
  · intro h
    -- the fields come off the front one by one, in the order of the key
    simp only [clientCacheKey, pushCacheKey, CtxOpts.toClientOpts, List.append_assoc,
      Option.isSome_map, ← TlsProtocol.intBytes_index, ← TlsCipherSuite.intBytes_index] at h
    obtain ⟨-, h⟩ := blob_append_inj (by decide) (by decide) h
    obtain ⟨hcert, h⟩ := path_delimits h
    obtain ⟨hkey, h⟩ := path_delimits h
    obtain ⟨hprotocol, h⟩ := protocol_delimits h
    obtain ⟨hcipher, h⟩ := cipher_delimits h
    obtain ⟨halpn, h⟩ := alpn_delimits h
    obtain ⟨hdepth, h⟩ := depth8_delimits h
    obtain ⟨hcafile, h⟩ := path_delimits h
    obtain ⟨hcapath, h⟩ := path_delimits h
    have hcrls := crls_delimits.inj h
    rw [CtxOpts.keyed, CtxOpts.keyed, CtxOpts.mk.injEq]
    exact ⟨hcert, hkey, hprotocol, hcipher, halpn, hdepth, hcafile, hcapath, hcrls, rfl⟩
  · intro h
    have hkeyed (opts : CtxOpts) : clientCacheKey opts = clientCacheKey opts.keyed := rfl
    rw [hkeyed a, hkeyed b, h]

theorem serverCacheKey_eq_iff_keyed {a b : ServerOpts} (hacert : a.cert.isSome)
    (hakey : a.key.isSome) (hbcert : b.cert.isSome) (hbkey : b.key.isSome) :
    serverCacheKey a = serverCacheKey b ↔ a.keyed = b.keyed := by
  obtain ⟨acert, ha⟩ := Option.isSome_iff_exists.mp hacert
  obtain ⟨bcert, hb⟩ := Option.isSome_iff_exists.mp hbcert
  obtain ⟨akey, ha'⟩ := Option.isSome_iff_exists.mp hakey
  obtain ⟨bkey, hb'⟩ := Option.isSome_iff_exists.mp hbkey
  constructor
  · intro h
    -- the two paths that a server must have are without a mark of their presence
    simp only [serverCacheKey, List.append_assoc, ha, ha', hb, hb'] at h
    obtain ⟨-, h⟩ := blob_append_inj (by decide) (by decide) h
    obtain ⟨hcert, h⟩ := text_delimits h
    obtain ⟨hkey, h⟩ := text_delimits h
    obtain ⟨hprotocol, h⟩ := protocol_delimits h
    obtain ⟨hcipher, h⟩ := cipher_delimits h
    obtain ⟨halpn, h⟩ := alpn_delimits h
    obtain ⟨htimeout, h⟩ := timeout_delimits h
    obtain ⟨hprefer, h⟩ := flag_delimits h
    obtain ⟨hmode, h⟩ := mode_delimits h
    obtain ⟨hdepth, h⟩ := depth4_delimits h
    obtain ⟨hcafile, h⟩ := path_delimits h
    obtain ⟨hcapath, h⟩ := path_delimits h
    have hcrls := crls_delimits.inj h
    rw [ServerOpts.keyed, ServerOpts.keyed, ServerOpts.mk.injEq, CtxOpts.mk.injEq, ha, ha', hb,
      hb', hcert, hkey]
    exact ⟨⟨rfl, rfl, hprotocol, hcipher, halpn, hdepth, hcafile, hcapath, hcrls, rfl⟩, htimeout,
      hprefer, hmode, rfl⟩
  · intro h
    have hkeyed (opts : ServerOpts) : serverCacheKey opts = serverCacheKey opts.keyed := rfl
    rw [hkeyed a, hkeyed b, h]

theorem clientTag_ne_serverTag {x y : Bytes} : blob clientTag ++ x ≠ blob serverTag ++ y := by
  intro h
  exact absurd (blob_append_inj (by decide) (by decide) h).1 (by decide)

end LuaNet.Tls
