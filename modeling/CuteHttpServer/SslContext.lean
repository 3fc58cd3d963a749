/-
The TLS configuration, and the OpenSSL context that is made from it.  OpenSSL is a
parameter: its functions, and the documented facts about them that a result needs.
-/
import CuteHttpServer.ByteString

namespace CuteHttpServer

open ByteString

inductive SslVersion
  | tls_1_0
  | tls_1_1
  | tls_1_2
  | tls_1_3
deriving DecidableEq

structure SslConfig where
  certificateFile : Bytes
  privateKeyFile : Bytes
  certificateChainFile : Bytes
  sslVersion : SslVersion
  cipherList : Bytes
  verifyClient : Bool
  verifyDepth : Int
  sessionTimeout : Int
  sessionCacheSize : Int
deriving DecidableEq

namespace SslConfig

def new : SslConfig where
  certificateFile := []
  privateKeyFile := []
  certificateChainFile := []
  sslVersion := .tls_1_2
  cipherList := ascii "HIGH:!aNULL:!MD5"
  verifyClient := false
  verifyDepth := 1
  sessionTimeout := 300
  sessionCacheSize := 1024 * 1024

def setVerifyClient (config : SslConfig) (verifyClient : Bool) : SslConfig :=
  { config with verifyClient := verifyClient }

def setVerifyDepth (config : SslConfig) (verifyDepth : Int) : SslConfig :=
  { config with verifyDepth := verifyDepth }

end SslConfig

/-- The options that the source gives to `SSL_CTX_set_options`. -/
inductive SslOption
  | noSslV2
  | noSslV3
  | noCompression
  | cipherServerPreference
  | noTls (version : SslVersion)
deriving DecidableEq

/-- The functions of OpenSSL that `Init` calls, on an `SSL_CTX` of type `C`, with
the return values that it looks at.  The session cache is put into the mode for
servers.  The last two say what becomes of the context: which versions have been
switched off by an option, and of which ones a session can be made. -/
structure OpenSsl (C : Type) where
  ctxNew : Option C
  setOptions : C → List SslOption → C
  useCertificateFile : C → Bytes → Int × C
  usePrivateKeyFile : C → Bytes → Int × C
  checkPrivateKey : C → Bool
  useCertificateChainFile : C → Bytes → Int × C
  setCipherList : C → Bytes → Int × C
  setSessionCacheServer : C → C
  sessSetCacheSize : C → Int → C
  setTimeout : C → Int → C
  switchedOff : C → SslVersion → Bool
  accepts : C → SslVersion → Bool

/-- What OpenSSL's manual says of the options: they are added to those that are
set, no other of these functions touches them, and a version that is switched off
is not used. -/
structure OpenSsl.Documented {C : Type} (openSsl : OpenSsl C) : Prop where
  setOptions : ∀ ctx options version,
    openSsl.switchedOff (openSsl.setOptions ctx options) version =
      (openSsl.switchedOff ctx version || options.contains (.noTls version))
  useCertificateFile : ∀ ctx file,
    openSsl.switchedOff (openSsl.useCertificateFile ctx file).2 = openSsl.switchedOff ctx
  usePrivateKeyFile : ∀ ctx file,
    openSsl.switchedOff (openSsl.usePrivateKeyFile ctx file).2 = openSsl.switchedOff ctx
  useCertificateChainFile : ∀ ctx file,
    openSsl.switchedOff (openSsl.useCertificateChainFile ctx file).2 = openSsl.switchedOff ctx
  setCipherList : ∀ ctx ciphers,
    openSsl.switchedOff (openSsl.setCipherList ctx ciphers).2 = openSsl.switchedOff ctx
  setSessionCacheServer : ∀ ctx,
    openSsl.switchedOff (openSsl.setSessionCacheServer ctx) = openSsl.switchedOff ctx
  sessSetCacheSize : ∀ ctx size,
    openSsl.switchedOff (openSsl.sessSetCacheSize ctx size) = openSsl.switchedOff ctx
  setTimeout : ∀ ctx timeout,
    openSsl.switchedOff (openSsl.setTimeout ctx timeout) = openSsl.switchedOff ctx
  refuses : ∀ ctx version, openSsl.switchedOff ctx version = true →
    openSsl.accepts ctx version = false

/-- The text as a C function sees it. -/
def cStr (text : Bytes) : Bytes := text.takeWhile (· ≠ 0)

structure SslContext (C : Type) where
  sslCtx : Option C
  sslConfig : SslConfig

namespace SslContext

variable {C : Type} (openSsl : OpenSsl C)

def new (config : SslConfig) : SslContext C := ⟨none, config⟩

/-- Each file is loaded only after the one before it. -/
def loadCertificates (config : SslConfig) (ctx : C) : Bool × C :=
  let certificate := openSsl.useCertificateFile ctx (cStr config.certificateFile)
  if certificate.1 ≤ 0 then (false, certificate.2)
  else
    let key := openSsl.usePrivateKeyFile certificate.2 (cStr config.privateKeyFile)
    if key.1 ≤ 0 then (false, key.2)
    else if !openSsl.checkPrivateKey key.2 then (false, key.2)
    else if config.certificateChainFile ≠ [] then
      let chain := openSsl.useCertificateChainFile key.2 (cStr config.certificateChainFile)
      if chain.1 ≤ 0 then (false, chain.2) else (true, chain.2)
    else (true, key.2)

/-- The options of `SetupProtocol`: the version of the configuration is the one
that is switched off. -/
def protocolOptions (version : SslVersion) : List SslOption :=
  [.noSslV2, .noSslV3, .noTls version]

def setupProtocol (config : SslConfig) (ctx : C) : Bool × C :=
  let ctx := openSsl.setOptions ctx (protocolOptions config.sslVersion)
  if config.cipherList ≠ [] then
    let ciphers := openSsl.setCipherList ctx (cStr config.cipherList)
    if ciphers.1 ≤ 0 then (false, ciphers.2) else (true, ciphers.2)
  else (true, ctx)

def setupSessionCache (config : SslConfig) (ctx : C) : C :=
  openSsl.setTimeout
    (openSsl.sessSetCacheSize (openSsl.setSessionCacheServer ctx) config.sessionCacheSize)
    config.sessionTimeout

def initOptions : List SslOption :=
  [.noSslV2, .noSslV3, .noCompression, .cipherServerPreference]

def init (context : SslContext C) : Bool × SslContext C :=
  match openSsl.ctxNew with
  | none => (false, { context with sslCtx := none })
  | some made =>
      let loaded :=
        loadCertificates openSsl context.sslConfig (openSsl.setOptions made initOptions)
      if !loaded.1 then (false, { context with sslCtx := some loaded.2 })
      else
        let setUp := setupProtocol openSsl context.sslConfig loaded.2
        if !setUp.1 then (false, { context with sslCtx := some setUp.2 })
        else
          (true, { context with
            sslCtx := some (setupSessionCache openSsl context.sslConfig setUp.2) })

/-- The context after a call that returns more than zero. -/
def passed (answer : Int × C) : Option C :=
  if 0 < answer.1 then some answer.2 else none

/-- The context with certificate, key and chain, if all of them can be loaded. -/
def loadable (config : SslConfig) (ctx : C) : Option C :=
  (passed (openSsl.useCertificateFile ctx (cStr config.certificateFile))).bind
    fun certified =>
  (passed (openSsl.usePrivateKeyFile certified (cStr config.privateKeyFile))).bind
    fun keyed =>
  if openSsl.checkPrivateKey keyed then
    if config.certificateChainFile = [] then some keyed
    else passed (openSsl.useCertificateChainFile keyed (cStr config.certificateChainFile))
  else none

/-- And with the version switched off and the ciphers. -/
def restricted (config : SslConfig) (ctx : C) : Option C :=
  let ctx := openSsl.setOptions ctx (protocolOptions config.sslVersion)
  if config.cipherList = [] then some ctx
  else passed (openSsl.setCipherList ctx (cStr config.cipherList))

/-- The context with all that a configuration asks for, if every call succeeds. -/
def acceptable (config : SslConfig) : Option C :=
  openSsl.ctxNew.bind fun made =>
  (loadable openSsl config (openSsl.setOptions made initOptions)).bind fun loaded =>
  restricted openSsl config loaded

section Init

variable {openSsl} {config : SslConfig} {ctx : C}

/-- What a step of `Init` returns, from what OpenSSL makes of the context. -/
def Returns (done : Bool × C) : Option C → Prop
  | some ctx => done = (true, ctx)
  | none => done.1 = false

theorem returns_passed (answer : Int × C) :
    Returns (if answer.1 ≤ 0 then (false, answer.2) else (true, answer.2)) (passed answer) := by
  unfold passed
  by_cases hpassed : 0 < answer.1
  · rw [if_pos hpassed, if_neg (Int.not_le.mpr hpassed)]
    rfl
  · rw [if_neg hpassed, if_pos (Int.not_lt.mp hpassed)]
    rfl

theorem loadCertificates_returns :
    Returns (loadCertificates openSsl config ctx) (loadable openSsl config ctx) := by
  unfold loadCertificates loadable
  generalize openSsl.useCertificateFile ctx (cStr config.certificateFile) = certificate
  by_cases hcertificate : 0 < certificate.1
  · rw [passed, if_pos hcertificate, Option.bind_some]
    simp only [if_neg (Int.not_le.mpr hcertificate)]
    generalize openSsl.usePrivateKeyFile certificate.2 (cStr config.privateKeyFile) = key
    by_cases hkey : 0 < key.1
    · rw [passed, if_pos hkey, Option.bind_some]
      simp only [if_neg (Int.not_le.mpr hkey)]
      cases hcheck : openSsl.checkPrivateKey key.2 with
      | false => rfl
      | true =>
          by_cases hchain : config.certificateChainFile = []
          · rw [if_pos rfl, if_pos hchain, Bool.not_true, if_neg Bool.false_ne_true,
              if_neg (not_not_intro hchain)]
            rfl
          · rw [if_pos rfl, if_neg hchain, Bool.not_true, if_neg Bool.false_ne_true, if_pos hchain]
            exact returns_passed _
    · rw [passed, if_neg hkey, if_pos (Int.not_lt.mp hkey)]
      rfl
  · rw [passed, if_neg hcertificate, if_pos (Int.not_lt.mp hcertificate)]
    rfl

theorem setupProtocol_returns :
    Returns (setupProtocol openSsl config ctx) (restricted openSsl config ctx) := by
  unfold setupProtocol restricted
  by_cases hciphers : config.cipherList = []
  · rw [if_pos hciphers, if_neg (not_not_intro hciphers)]
    rfl
  · rw [if_neg hciphers, if_pos hciphers]
    exact returns_passed _

/-- `Init` succeeds exactly if all calls of OpenSSL do. -/
theorem init_eq (config : SslConfig) :
    (init openSsl (new config)).1 = (acceptable openSsl config).isSome ∧
      ∀ ctx, acceptable openSsl config = some ctx →
        (init openSsl (new config)).2 =
          ⟨some (setupSessionCache openSsl config ctx), config⟩ := by
  have hfailed : ∀ ctx : C, none ≠ some ctx := fun ctx => nofun
  unfold init acceptable
  cases openSsl.ctxNew with
  | none => exact ⟨rfl, fun ctx h => absurd h (hfailed ctx)⟩
  | some made =>
      have hloads := @loadCertificates_returns C openSsl config
        (openSsl.setOptions made initOptions)
      rw [Option.bind_some]
      cases hloaded : loadable openSsl config (openSsl.setOptions made initOptions) with
      | none =>
          rw [hloaded] at hloads
          have hfalse : (loadCertificates openSsl config
              (openSsl.setOptions made initOptions)).1 = false := hloads
          simp only [new, hfalse, Bool.not_false, if_true]
          exact ⟨rfl, fun ctx h => absurd h (hfailed ctx)⟩
      | some loaded =>
          rw [hloaded] at hloads
          have htrue : loadCertificates openSsl config
              (openSsl.setOptions made initOptions) = (true, loaded) := hloads
          have hsets := @setupProtocol_returns C openSsl config loaded
          rw [Option.bind_some]
          simp only [new, htrue, Bool.not_true, Bool.false_eq_true, if_false]
          cases hrestricted : restricted openSsl config loaded with
          | none =>
              rw [hrestricted] at hsets
              have hfalse : (setupProtocol openSsl config loaded).1 = false := hsets
              simp only [hfalse, Bool.not_false, if_true]
              exact ⟨rfl, fun ctx h => absurd h (hfailed ctx)⟩
          | some ctx =>
              rw [hrestricted] at hsets
              have hdone : setupProtocol openSsl config loaded = (true, ctx) := hsets
              simp only [hdone, Bool.not_true, Bool.false_eq_true, if_false]
              refine ⟨rfl, ?_⟩
              rintro _ ⟨⟩
              rfl

end Init

section Versions

variable {openSsl} (h : openSsl.Documented) {config : SslConfig} {made loaded ctx : C}

theorem eq_of_passed {answer : Int × C} (hpassed : passed answer = some ctx) :
    ctx = answer.2 :=
  (Option.some.inj (Option.ite_none_right_eq_some.mp hpassed).2).symm

include h

/-- Loading the files switches no version off. -/
theorem switchedOff_loadable (hloaded : loadable openSsl config ctx = some loaded) :
    openSsl.switchedOff loaded = openSsl.switchedOff ctx := by
  obtain ⟨certified, hcertified, hrest⟩ := Option.bind_eq_some_iff.mp hloaded
  obtain ⟨keyed, hkeyed, hchecked⟩ := Option.bind_eq_some_iff.mp hrest
  have hbefore : openSsl.switchedOff keyed = openSsl.switchedOff ctx := by
    rw [eq_of_passed hkeyed, h.usePrivateKeyFile, eq_of_passed hcertified,
      h.useCertificateFile]
  obtain ⟨_, hchain⟩ := Option.ite_none_right_eq_some.mp hchecked
  by_cases hnone : config.certificateChainFile = []
  · rw [if_pos hnone, Option.some.injEq] at hchain
    rw [← hchain, hbefore]
  · rw [if_neg hnone] at hchain
    rw [eq_of_passed hchain, h.useCertificateChainFile, hbefore]

/-- The configured version is switched off. -/
theorem switchedOff_restricted (hrestricted : restricted openSsl config loaded = some ctx)
    (version : SslVersion) :
    openSsl.switchedOff ctx version =
      (openSsl.switchedOff loaded version || version == config.sslVersion) := by
  have hoption : (protocolOptions config.sslVersion).contains (.noTls version) =
      (version == config.sslVersion) := by
    simp [protocolOptions, Bool.beq_eq_decide_eq]
  have hset := h.setOptions loaded (protocolOptions config.sslVersion) version
  rw [hoption] at hset
  unfold restricted at hrestricted
  by_cases hnone : config.cipherList = []
  · rw [if_pos hnone, Option.some.injEq] at hrestricted
    rw [← hrestricted, hset]
  · rw [if_neg hnone] at hrestricted
    rw [eq_of_passed hrestricted, h.setCipherList, hset]

/-- In the context that a configuration asks for, the configured version is off, and
no other that is on in a new context. -/
theorem switchedOff_acceptable (hmade : openSsl.ctxNew = some made)
    (hacceptable : acceptable openSsl config = some ctx) (version : SslVersion) :
    openSsl.switchedOff (setupSessionCache openSsl config ctx) version =
      (openSsl.switchedOff made version || version == config.sslVersion) := by
  rw [acceptable, hmade, Option.bind_some] at hacceptable
  obtain ⟨loaded, hloaded, hrestricted⟩ := Option.bind_eq_some_iff.mp hacceptable
  have hoption : initOptions.contains (.noTls version) = false := by simp [initOptions]
  have hstart := h.setOptions made initOptions version
  rw [hoption, Bool.or_false] at hstart
  rw [setupSessionCache, h.setTimeout, h.sessSetCacheSize, h.setSessionCacheServer,
    switchedOff_restricted h hrestricted, switchedOff_loadable h hloaded, hstart]

end Versions

/-- `Init` succeeds exactly if every call of OpenSSL that the configuration asks for
does.  Of the context that it leaves no session of the configured version is ever
made, while no other version is switched off in it that a new context has on; its
session cache has been given the configured size and timeout; and whether clients
are to be verified makes no difference. -/
theorem init_iff {openSsl : OpenSsl C} (h : openSsl.Documented) (config : SslConfig) :
    ((init openSsl (new config)).1 = true ↔ (acceptable openSsl config).isSome = true) ∧
      ∀ context, init openSsl (new config) = (true, context) →
        ∃ made ctx limited, openSsl.ctxNew = some made ∧ context = ⟨some ctx, config⟩ ∧
          ctx = openSsl.setTimeout (openSsl.sessSetCacheSize
            (openSsl.setSessionCacheServer limited) config.sessionCacheSize)
              config.sessionTimeout ∧
          (∀ version, openSsl.switchedOff ctx version =
            (openSsl.switchedOff made version || version == config.sslVersion)) ∧
          openSsl.accepts ctx config.sslVersion = false ∧
          ∀ verifyClient verifyDepth,
            init openSsl
                (new ((config.setVerifyClient verifyClient).setVerifyDepth verifyDepth)) =
              (true, ⟨some ctx,
                (config.setVerifyClient verifyClient).setVerifyDepth verifyDepth⟩) := by
  obtain ⟨hflag, hcontext⟩ := @init_eq C openSsl config
  refine ⟨by rw [hflag], fun context hinit => ?_⟩
  rw [hinit] at hflag hcontext
  obtain ⟨ctx, hctx⟩ := Option.isSome_iff_exists.mp hflag.symm
  obtain ⟨made, hmade, _⟩ := Option.bind_eq_some_iff.mp hctx
  have hoff := switchedOff_acceptable h hmade hctx
  refine ⟨made, setupSessionCache openSsl config ctx, ctx, hmade, hcontext ctx hctx, rfl, hoff,
    ?_, fun verifyClient verifyDepth => ?_⟩
  · apply h.refuses
    rw [hoff]
    simp
  · obtain ⟨hflag', hcontext'⟩ :=
      @init_eq C openSsl ((config.setVerifyClient verifyClient).setVerifyDepth verifyDepth)
    exact Prod.ext (hflag'.trans hflag.symm) (hcontext' ctx hctx)

/-- An OpenSSL for which no file fails.  Its contexts are the options that have been
set, one of them from the start, and the two oldest versions are refused in any
case. -/
def willing : OpenSsl (List SslOption) where
  ctxNew := some [.noCompression]
  setOptions ctx options := ctx ++ options
  useCertificateFile ctx _ := (1, ctx)
  usePrivateKeyFile ctx _ := (1, ctx)
  checkPrivateKey _ := true
  useCertificateChainFile ctx _ := (1, ctx)
  setCipherList ctx _ := (1, ctx)
  setSessionCacheServer ctx := ctx
  sessSetCacheSize ctx _ := ctx
  setTimeout ctx _ := ctx
  switchedOff ctx version := ctx.contains (.noTls version)
  accepts ctx version :=
    !ctx.contains (.noTls version) && version != .tls_1_0 && version != .tls_1_1

theorem documented_willing : willing.Documented where
  setOptions ctx options version := List.contains_append
  useCertificateFile _ _ := rfl
  usePrivateKeyFile _ _ := rfl
  useCertificateChainFile _ _ := rfl
  setCipherList _ _ := rfl
  setSessionCacheServer _ := rfl
  sessSetCacheSize _ _ := rfl
  setTimeout _ _ := rfl
  refuses ctx version hoff := by
    have hcontains : ctx.contains (.noTls version) = true := hoff
    change (!ctx.contains (.noTls version) && version != .tls_1_0 && version != .tls_1_1) = false
    rw [hcontains]
    rfl

/-- A server that is set up for one version refuses just this one of the newer
two. -/
theorem init_iff_willing :
    ∃ ctx, init willing (new .new) = (true, ⟨some ctx, .new⟩) ∧
      willing.accepts ctx .tls_1_2 = false ∧ willing.accepts ctx .tls_1_3 = true := by
  have hinit : init willing (new .new) = (true, (init willing (new .new)).2) := rfl
  obtain ⟨made, ctx, limited, _, hcontext, _, _, hrefused, _⟩ :=
    (init_iff documented_willing .new).2 _ hinit
  rw [hcontext] at hinit
  have hctx : ((init willing (new .new)).2).sslCtx = some ctx := by rw [hcontext]
  refine ⟨ctx, hinit, hrefused, ?_⟩
  obtain rfl := Option.some.inj hctx
  decide

end SslContext

end CuteHttpServer
