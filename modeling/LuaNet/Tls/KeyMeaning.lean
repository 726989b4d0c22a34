import LuaNet.Lib.Raising
import LuaNet.Tls.CacheKeys
import LuaNet.Tls.Session

/-! What the keys of the caches stand for: options with one key are used alike, and options that
are used alike have one key but for values that are told apart although nothing comes of it. -/

namespace LuaNet.Tls

open LuaNet.Lib

/-! The options that a call gets past its checks with. -/

theorem clientOptions_paired {t : OptTable} {opts : CtxOpts} (h : clientOptions t = .ok opts) :
    opts.cert.isSome = opts.key.isSome := by
  obtain ⟨checked, -, h⟩ := except_bind_eq_ok h
  split at h
  · cases h
  · rename_i hpaired
    have hpaired : checked.cert.isSome = checked.key.isSome := not_not.mp hpaired
    split at h
    · cases h
      exact hpaired
    · obtain ⟨alpn, -, h⟩ := except_bind_eq_ok h
      cases h
      exact hpaired

theorem serverOptions_required {t : OptTable} {opts : ServerOpts}
    (h : serverOptions t = .ok opts) : opts.cert.isSome ∧ opts.key.isSome := by
  obtain ⟨checked, -, h⟩ := except_bind_eq_ok h
  split at h
  · cases h
  · rename_i hcert
    split at h
    · cases h
    · rename_i hkey
      rw [Option.isNone_iff_eq_none, ← ne_eq, Option.ne_none_iff_isSome] at hcert hkey
      obtain ⟨callback, -, h⟩ := except_bind_eq_ok h
      split at h
      · cases h
        exact ⟨hcert, hkey⟩
      · obtain ⟨alpn, -, h⟩ := except_bind_eq_ok h
        cases h
        exact ⟨hcert, hkey⟩

/-! Contexts that are alike were made from the same options. -/

def SslCtx.base (ctx : SslCtx) : SslCtx :=
  { ctx with sessions := .off, serverPreference := false, verifyMode := 0 }

theorem tlsGetProtocolVers_inj {a b : TlsProtocol}
    (h : tlsGetProtocolVers a = tlsGetProtocolVers b) : a = b := by
  revert h
  cases a <;> cases b <;> decide

theorem tlsCipherList_inj {a b : TlsCipherSuite} (h : tlsCipherList a = tlsCipherList b) :
    a = b := by
  revert h
  cases a <;> cases b <;> decide

theorem certificate_inj {a b : CtxOpts} (ha : a.cert.isSome = a.key.isSome)
    (hb : b.cert.isSome = b.key.isSome) (h : a.build.certificate = b.build.certificate) :
    a.cert = b.cert ∧ a.key = b.key := by
  rw [CtxOpts.build, CtxOpts.build] at h
  -- a key is there exactly if its certificate is, so the cases of the certificates suffice
  rcases hacert : a.cert with _ | acert <;> rcases hbcert : b.cert with _ | bcert <;>
    rw [hacert, hbcert] at h
  · rw [hacert, eq_comm, Option.isSome_none, Option.isSome_eq_false_iff,
      Option.isNone_iff_eq_none] at ha
    rw [hbcert, eq_comm, Option.isSome_none, Option.isSome_eq_false_iff,
      Option.isNone_iff_eq_none] at hb
    exact ⟨rfl, ha.trans hb.symm⟩
  · cases h
  · cases h
  · rw [hacert, eq_comm, Option.isSome_some] at ha
    rw [hbcert, eq_comm, Option.isSome_some] at hb
    obtain ⟨akey, hakey⟩ := Option.isSome_iff_exists.mp ha
    obtain ⟨bkey, hbkey⟩ := Option.isSome_iff_exists.mp hb
    rw [hakey, hbkey] at h
    have hbytes := Prod.mk.inj (Option.some.inj h)
    rw [hakey, hbkey, CString.bytes_inj hbytes.1, CString.bytes_inj hbytes.2]
    exact ⟨rfl, rfl⟩

theorem verifyLocations_inj {a b : CtxOpts}
    (h : a.build.verifyLocations = b.build.verifyLocations) :
    a.cafile = b.cafile ∧ a.capath = b.capath := by
  have hnone (opts : CtxOpts) (hopts : ¬(opts.cafile.isSome || opts.capath.isSome) = true) :
      opts.cafile = none ∧ opts.capath = none := by
    simpa using hopts
  -- nothing is loaded only where neither path is given
  simp only [CtxOpts.build] at h
  split at h <;> split at h
  · have hbytes := Prod.mk.inj (Option.some.inj h)
    exact ⟨optionBytes_inj hbytes.1, optionBytes_inj hbytes.2⟩
  · cases h
  · cases h
  · rename_i ha hb
    obtain ⟨hafile, hapath⟩ := hnone a ha
    obtain ⟨hbfile, hbpath⟩ := hnone b hb
    rw [hafile, hapath, hbfile, hbpath]
    exact ⟨rfl, rfl⟩

theorem alpn_inj {a b : CtxOpts} (h : a.build.alpn = b.build.alpn) : a.alpn = b.alpn := by
  have hbytes : a.alpn.bytes = b.alpn.bytes := by
    simp only [CtxOpts.build] at h
    split at h <;> split at h
    · rename_i ha hb
      rw [ha, hb]
    · cases h
    · cases h
    · exact Option.some.inj h
  exact AlpnWire.bytes_inj hbytes

theorem build_eq_iff {a b : CtxOpts} (ha : a.cert.isSome = a.key.isSome)
    (hb : b.cert.isSome = b.key.isSome) : a.build = b.build ↔ a.keyed = b.keyed := by
  constructor
  · intro h
    obtain ⟨hcert, hkey⟩ := certificate_inj ha hb (congrArg SslCtx.certificate h)
    obtain ⟨hcafile, hcapath⟩ := verifyLocations_inj (congrArg SslCtx.verifyLocations h)
    have hprotocol : a.protocol = b.protocol := by
      apply tlsGetProtocolVers_inj
      exact Prod.ext (congrArg SslCtx.minVersion h) (congrArg SslCtx.maxVersion h)
    have hcipher := tlsCipherList_inj (congrArg SslCtx.cipherList h)
    have halpn := alpn_inj (congrArg SslCtx.alpn h)
    have hdepth : a.verifyDepth = b.verifyDepth :=
      Option.map_injective (fun _ _ => UInt.val_inj) (congrArg SslCtx.verifyDepth h)
    have hcrls : a.crls = b.crls :=
      Option.map_injective (fun _ _ => SizedBytes.ext) (congrArg SslCtx.crls h)
    rw [CtxOpts.keyed, CtxOpts.keyed, CtxOpts.mk.injEq]
    exact ⟨hcert, hkey, hprotocol, hcipher, halpn, hdepth, hcafile, hcapath, hcrls, rfl⟩
  · intro h
    have hkeyed (opts : CtxOpts) : opts.build = opts.keyed.build := rfl
    rw [hkeyed a, hkeyed b, h]

theorem buildClient_eq_iff {a b : CtxOpts} (ha : a.cert.isSome = a.key.isSome)
    (hb : b.cert.isSome = b.key.isSome) :
    (∀ cache, buildClient { a with cache := cache } = buildClient { b with cache := cache }) ↔
      a.keyed = b.keyed := by
  rw [← build_eq_iff ha hb]
  constructor
  · intro h
    have hbase (opts : CtxOpts) : (buildClient { opts with cache := none }).base = opts.build := rfl
    rw [← hbase a, ← hbase b, h none]
  · intro h cache
    have hbase (opts : CtxOpts) : buildClient { opts with cache := cache } =
        { opts.build with sessions := (buildClient { opts with cache := cache }).sessions } := rfl
    rw [hbase a, hbase b, h]
    rfl

/-- Servers have one key exactly if their contexts come out alike and no two values are told apart
that come to the same. -/
theorem buildServer_eq_iff {a b : ServerOpts} (ha : a.cert.isSome = a.key.isSome)
    (hb : b.cert.isSome = b.key.isSome) :
    (buildServer a = buildServer b ∧ a.sessTimeout = b.sessTimeout ∧
      a.verifyMode = b.verifyMode) ↔ a.keyed = b.keyed := by
  constructor
  · intro h
    obtain ⟨h, htimeout, hmode⟩ := h
    have hbase (opts : ServerOpts) : (buildServer opts).base = opts.build := rfl
    have hbuild : a.build = b.build := by rw [← hbase a, ← hbase b, h]
    have hshared := (build_eq_iff ha hb).mp hbuild
    have hprefer : a.preferClientCiphers = b.preferClientCiphers :=
      Bool.not_inj (congrArg SslCtx.serverPreference h)
    rw [ServerOpts.keyed, ServerOpts.keyed, ServerOpts.mk.injEq]
    exact ⟨hshared, htimeout, hprefer, hmode, rfl⟩
  · intro h
    have hkeyed (opts : ServerOpts) : buildServer opts = buildServer opts.keyed := rfl
    have htimeout : a.keyed.sessTimeout = b.keyed.sessTimeout := congrArg ServerOpts.sessTimeout h
    have hmode : a.keyed.verifyMode = b.keyed.verifyMode := congrArg ServerOpts.verifyMode h
    rw [hkeyed a, hkeyed b, h]
    exact ⟨rfl, htimeout, hmode⟩

/-! Connections that are set up alike were opened with the same options. -/

inductive PeerVerify
  | none
  | anyTime
  | peer
deriving DecidableEq

def peerVerify (verifyCert verifyTime : Bool) : PeerVerify :=
  if !verifyCert then .none else if !verifyTime then .anyTime else .peer

/-- What `connect_lua` makes of a new SSL object: the SNI, what the certificate must be for, with
whether this is an IP address, and how it is verified. -/
structure SslSetup where
  hostName : Option Bytes
  identity : Option (Bool × Bytes)
  verify : PeerVerify
deriving DecidableEq

def sslSetup (isIp : Bytes → Bool) (opts : ContextOpts) : SslSetup :=
  let name := opts.servername.bytes
  { hostName := if name = [] ∨ isIp name then none else some name
    identity := if name = [] ∨ opts.verifyName = false then none else some (isIp name, name)
    verify := peerVerify opts.verifyCert opts.verifyTime }

theorem peerVerify_inj : ∀ {cert time cert' time' : Bool},
    peerVerify cert time = peerVerify cert' time' →
      cert = cert' ∧ (cert = true → time = time') := by
  decide

theorem servername_of_verifyName {fd : Int} {opts : ContextOpts} {env : ConnectEnv}
    (h : connectRefused fd opts env = false) (hname : opts.verifyName = true) :
    opts.servername.bytes ≠ [] := by
  intro hempty
  rw [connectRefused, hname, hempty] at h
  simp at h

theorem identity_isSome {fd : Int} {opts : ContextOpts} {env : ConnectEnv} (isIp : Bytes → Bool)
    (h : connectRefused fd opts env = false) :
    (sslSetup isIp opts).identity.isSome = opts.verifyName := by
  rcases hname : opts.verifyName with _ | _
  · simp [sslSetup, hname]
  · have hservername := servername_of_verifyName h hname
    simp [sslSetup, hname, hservername]

/-- The connections of a client share a key exactly if they are to the same host and port, under
the same name, are set up alike, and no two values are told apart that come to the same. -/
theorem pushSessionKey_eq_iff (isIp : Bytes → Bool) {fd fd' : Int} {a b : ContextOpts}
    {env env' : ConnectEnv} (ha : connectRefused fd a env = false)
    (hb : connectRefused fd' b env' = false) :
    pushSessionKey a = pushSessionKey b ↔
      a.host = b.host ∧ a.port = b.port ∧ a.servername = b.servername ∧
        sslSetup isIp a = sslSetup isIp b ∧
        (a.verifyCert = false → a.verifyTime = b.verifyTime) := by
  constructor
  · intro h
    rw [pushSessionKey_inj h]
    exact ⟨rfl, rfl, rfl, rfl, fun _ => rfl⟩
  · intro h
    obtain ⟨hhost, hport, hservername, hsetup, hunverified⟩ := h
    have hname : a.verifyName = b.verifyName := by
      rw [← identity_isSome isIp ha, ← identity_isSome isIp hb, hsetup]
    obtain ⟨hcert, hverified⟩ := peerVerify_inj (congrArg SslSetup.verify hsetup)
    -- without a certificate to verify the set-up does not tell the times apart
    have htime : a.verifyTime = b.verifyTime := by
      rcases hverify : a.verifyCert with _ | _
      · exact hunverified hverify
      · exact hverified hverify
    have hsame : a = b := by
      cases a
      cases b
      rw [ContextOpts.mk.injEq]
      exact ⟨hhost, hport, hservername, hname, htime, hcert⟩
    rw [hsame]

theorem portText_bytes {n : Nat} (h : n ≤ 65535) : (portText n).bytes = ascii (toString n) := by
  have hlen : (Nat.toDigits 10 n).length ≤ 5 := by
    rw [Nat.length_toDigits_le_iff (by decide) (by decide)]
    omega
  have htext : (toString n).toList = Nat.toDigits 10 n := by
    rw [Nat.toString_eq_repr, Nat.toList_repr]
  rw [ascii, htext]
  apply List.take_of_length_le
  rwa [List.length_map]

theorem checkOptPort_number {n : Nat} (h : n ≤ 65535) {s : LuaString}
    (hs : s.bytes = ascii (toString n)) : checkOptPort (.number n) = checkOptPort (.string s) := by
  have hrange : 0 ≤ (n : Rat) ∧ (n : Rat) ≤ 65535 ∧ (n : Rat).den = 1 :=
    ⟨Rat.natCast_nonneg, Rat.natCast_le_natCast.mpr h, Rat.den_natCast n⟩
  rw [checkOptPort, checkOptPort, if_pos hrange, Rat.num_natCast, Int.toNat_natCast]
  exact congrArg Except.ok (SizedBytes.ext ((portText_bytes h).trans hs.symm))

theorem sessionKey_number (args : ConnectArgs) {n : Nat} (h : n ≤ 65535) {s : LuaString}
    (hs : s.bytes = ascii (toString n)) :
    ∃ key, (checkContextOpts { args with port := .number n }).map pushSessionKey = .ok key ∧
      (checkContextOpts { args with port := .string s }).map pushSessionKey = .ok key := by
  have hsame : checkContextOpts { args with port := .number n } =
      checkContextOpts { args with port := .string s } := by
    simp only [checkContextOpts, checkOptPort_number h hs]
  rw [hsame]
  exact ⟨_, rfl, rfl⟩

/-- The keys of contexts and of sessions tell options apart exactly as they were parsed. -/
theorem cacheKeys_exact (isIp : Bytes → Bool) :
    (∀ ta tb a b, clientOptions ta = .ok a → clientOptions tb = .ok b →
      (clientCacheKey a = clientCacheKey b ↔ a.keyed = b.keyed) ∧
      (clientCacheKey a = clientCacheKey b ↔
        ∀ cache, buildClient { a with cache := cache } = buildClient { b with cache := cache })) ∧
    (∀ ta tb a b, serverOptions ta = .ok a → serverOptions tb = .ok b →
      (serverCacheKey a = serverCacheKey b ↔ a.keyed = b.keyed) ∧
      (serverCacheKey a = serverCacheKey b ↔
        buildServer a = buildServer b ∧ a.sessTimeout = b.sessTimeout ∧
          a.verifyMode = b.verifyMode)) ∧
    (∀ a b, clientCacheKey a ≠ serverCacheKey b) ∧
    (∀ a b, pushSessionKey a = pushSessionKey b ↔ a = b) ∧
    (∀ fd fd' env env' a b, connectRefused fd a env = false → connectRefused fd' b env' = false →
      (pushSessionKey a = pushSessionKey b ↔
        a.host = b.host ∧ a.port = b.port ∧ a.servername = b.servername ∧
          sslSetup isIp a = sslSetup isIp b ∧
          (a.verifyCert = false → a.verifyTime = b.verifyTime))) ∧
    (∀ (args : ConnectArgs) (n : Nat) (s : LuaString), n ≤ 65535 → s.bytes = ascii (toString n) →
      ∃ key, (checkContextOpts { args with port := .number n }).map pushSessionKey = .ok key ∧
        (checkContextOpts { args with port := .string s }).map pushSessionKey = .ok key) := by
  refine ⟨?_, ?_, ?_, ?_, ?_, ?_⟩
  · intro ta tb a b ha hb
    have hkeyed := clientCacheKey_eq_iff_keyed a b
    have hbuilt := buildClient_eq_iff (clientOptions_paired ha) (clientOptions_paired hb)
    exact ⟨hkeyed, hkeyed.trans hbuilt.symm⟩
  · intro ta tb a b ha hb
    obtain ⟨hacert, hakey⟩ := serverOptions_required ha
    obtain ⟨hbcert, hbkey⟩ := serverOptions_required hb
    have hkeyed := serverCacheKey_eq_iff_keyed hacert hakey hbcert hbkey
    have hbuilt := buildServer_eq_iff (hacert.trans hakey.symm) (hbcert.trans hbkey.symm)
    exact ⟨hkeyed, hkeyed.trans hbuilt.symm⟩
  · intro a b h
    simp only [clientCacheKey, pushCacheKey, serverCacheKey, List.append_assoc] at h
    exact clientTag_ne_serverTag h
  · intro a b
    exact ⟨pushSessionKey_inj, congrArg pushSessionKey⟩
  · intro fd fd' env env' a b ha hb
    exact pushSessionKey_eq_iff isIp ha hb
  · intro args n s hn hs
    exact sessionKey_number args hn hs

def pemTable (pairs : List (OptName × OptVal)) : OptTable :=
  { pairs := (.cert, .string ⟨[99], by decide⟩) :: (.key, .string ⟨[107], by decide⟩) :: pairs }

def pemOpts : ServerOpts :=
  { cert := some ⟨⟨[99], by decide⟩, by decide⟩, key := some ⟨⟨[107], by decide⟩, by decide⟩ }

def unverified (verifyTime : Bool) : ContextOpts :=
  { host := ⟨[112], by decide⟩, port := emptyString, servername := emptyString
    verifyName := false, verifyTime := verifyTime, verifyCert := false }

theorem cacheKeys_exact_pem :
    (clientCacheKey pemOpts.toCtxOpts = clientCacheKey {} ↔
      ∀ cache, buildClient { pemOpts.toCtxOpts with cache := cache } =
        buildClient { cache := cache }) ∧
    (serverCacheKey pemOpts = serverCacheKey { pemOpts with preferClientCiphers := true } ↔
      buildServer pemOpts = buildServer { pemOpts with preferClientCiphers := true } ∧
        pemOpts.sessTimeout = pemOpts.sessTimeout ∧ pemOpts.verifyMode = pemOpts.verifyMode) ∧
    (pushSessionKey (unverified true) = pushSessionKey (unverified false) ↔
      (unverified true).host = (unverified false).host ∧
        (unverified true).port = (unverified false).port ∧
        (unverified true).servername = (unverified false).servername ∧
        sslSetup (fun _ => false) (unverified true) = sslSetup (fun _ => false) (unverified false) ∧
        ((unverified true).verifyCert = false →
          (unverified true).verifyTime = (unverified false).verifyTime)) ∧
    ∃ key,
      (checkContextOpts ⟨none, .number (80 : Nat), none, none, none, none⟩).map pushSessionKey =
        .ok key ∧
      (checkContextOpts ⟨none, .string ⟨[56, 48], by decide⟩, none, none, none, none⟩).map
        pushSessionKey = .ok key := by
  have h := cacheKeys_exact fun _ => false
  obtain ⟨hclient, hserver, -, -, hsession, hport⟩ := h
  exact ⟨(hclient (pemTable []) { pairs := [] } _ _ rfl rfl).2,
    (hserver (pemTable []) (pemTable [(.preferClientCiphers, .boolean true)]) _ _ rfl rfl).2,
    hsession 0 0 ⟨true, true, true, none⟩ ⟨true, true, true, none⟩ _ _ rfl rfl,
    hport ⟨none, .absent, none, none, none, none⟩ 80 ⟨[56, 48], by decide⟩ (by decide)
      (by decide)⟩

/-- Timeouts that issue no tickets make contexts that are alike under different keys, and so does
the time of a certificate that is not verified for connections. The cache of a client is in no key
and decides whether its context keeps sessions. -/
theorem sameContext_differentKeys :
    (∃ ta tb a b, serverOptions ta = .ok a ∧ serverOptions tb = .ok b ∧
      buildServer a = buildServer b ∧ serverCacheKey a ≠ serverCacheKey b) ∧
    (∃ ta tb a b, clientOptions ta = .ok a ∧ clientOptions tb = .ok b ∧
      clientCacheKey a = clientCacheKey b ∧ buildClient a ≠ buildClient b) ∧
    (∀ isIp, sslSetup isIp (unverified true) = sslSetup isIp (unverified false)) ∧
    pushSessionKey (unverified true) ≠ pushSessionKey (unverified false) := by
  refine ⟨⟨pemTable [(.sessionTimeout, .number 0 "0")],
    pemTable [(.sessionTimeout, .number (-1) "-1")],
    { pemOpts with sessTimeout := ⟨0, by decide, by decide⟩ },
    { pemOpts with sessTimeout := ⟨-1, by decide, by decide⟩ }, rfl, rfl, rfl, ?_⟩,
    ⟨{ pairs := [(.cache, .cache ⟨0, 0⟩)] }, { pairs := [(.cache, .cache ⟨1, 1⟩)] },
      { cache := some ⟨0, 0⟩ }, { cache := some ⟨1, 1⟩ }, rfl, rfl, rfl, by decide⟩,
    fun _ => rfl, ?_⟩
  · intro h
    have hkeyed := (serverCacheKey_eq_iff_keyed rfl rfl rfl rfl).mp h
    exact absurd (congrArg ServerOpts.sessTimeout hkeyed) (by decide)
  · intro h
    exact absurd (congrArg ContextOpts.verifyTime (pushSessionKey_inj h)) (by decide)

end LuaNet.Tls
