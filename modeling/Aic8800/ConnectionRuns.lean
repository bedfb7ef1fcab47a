import Aic8800.Connection

/-!
# A connection in every order

Exactly which steps leave an interface with a state that no indication will end, with
one that cfg80211 was not told, or at a NULL pointer. Then the choice of the way to
authenticate with WEP: an access point refuses one attempt at most, unless what was
learned from it is thrown away.
-/

set_option autoImplicit false

namespace AIC.Connection
open Lib.GuardedRun
open AIC.KeyTable (ENOMEM EINVAL)
open AIC.MeshTables (MacAddr)

variable {params : ModParams} {vif : ℕ} {s : State}

/-! ## What the state stands for -/

/-- Both states in between have an indication that will end them, and cfg80211 knows of the other
two, but for a roaming. -/
def Settled (s : State) : Prop :=
  match s.drvConnState with
  | .connected => s.told = true ∧ s.ap.isSome = true ∧ s.carrier = true
  | .disconnected => s.told = true → s.roaming = true
  | .connecting => 0 < s.pending
  | .disconnecting => s.leaving = true

def Right (s : State) : Prop := s.broken = false ∧ (s.up = true → Settled s)

/-- The request goes out and is accepted. -/
structure Accepted (sme : Sme) (reply : ConnectReply) : Prop where
  sae : sme.authType = .sae → sme.externalAuthSupport = true
  alloc : reply.alloc = true
  ie : sme.ie.length ≤ 256
  auth : (authAlg sme.authType).isSome = true
  accepted : reply.accepted = true

def Proper (s : State) : Act → Prop
  | .connect sme reply => s.drvConnState = .disconnecting ∨ Accepted (s.tried sme) reply ∨
      0 < s.pending
  | .disconnect _ alloc accepted => s.drvConnState = .connected →
    s.leaving = true ∨ alloc = true ∧ accepted = true
  | .smConnectInd _ _ _ _ => s.tabled = true
  | .smDisconnectInd _ _ => s.tabled = true → s.ap.isSome = true
  | .smExternalAuthRequiredInd _ _ => s.tabled = true
  | .rwnxOpen first _ => Settled (if first then { s with drvConnState := .disconnected } else s)
  | _ => True

/-- What a request for a connection leaves as it was. -/
structure Apart (s t : State) : Prop where
  up : t.up = s.up
  tabled : t.tabled = s.tabled
  broken : t.broken = s.broken
  drvConnState : t.drvConnState = s.drvConnState
  pending : s.pending ≤ t.pending

theorem Apart.trans {t u : State} (h : Apart s t) (h' : Apart t u) : Apart s u :=
  ⟨h'.up.trans h.up, h'.tabled.trans h.tabled, h'.broken.trans h.broken,
    h'.drvConnState.trans h.drvConnState, h.pending.trans h'.pending⟩

theorem sendSmConnectReq_spec (params : ModParams) (s : State) (sme : Sme) (reply : ConnectReply) :
    Apart s (s.sendSmConnectReq params sme reply).2 ∧
      (s.sendSmConnectReq params sme reply).2.pending = s.pending ∧
      ((s.sendSmConnectReq params sme reply).1 = 0 ↔ reply.alloc = true ∧ sme.ie.length ≤ 256 ∧
        (authAlg sme.authType).isSome = true) := by
  unfold State.sendSmConnectReq
  cases halloc : reply.alloc with
  | false => exact ⟨⟨rfl, rfl, rfl, rfl, le_rfl⟩, rfl, by simp [ENOMEM]⟩
  | true =>
    by_cases hie : 256 < sme.ie.length
    · simp only [Bool.not_true, Bool.false_eq_true, if_false, if_pos hie]
      exact ⟨⟨rfl, rfl, rfl, rfl, le_rfl⟩, trivial, by simp [EINVAL, hie]⟩
    · cases hauth : authAlg sme.authType with
      | none =>
        simp only [Bool.not_true, Bool.false_eq_true, if_false, if_neg hie]
        exact ⟨⟨rfl, rfl, rfl, rfl, le_rfl⟩, trivial, by simp [EINVAL]⟩
      | some authType =>
        simp only [Bool.not_true, Bool.false_eq_true, if_false, if_neg hie]
        exact ⟨⟨rfl, rfl, rfl, rfl, le_rfl⟩, trivial, by simpa using hie⟩

theorem connectKeys_spec (vif : ℕ) (s : State) (sme : Sme) (reply : ConnectReply) :
    Apart s (s.connectKeys vif sme reply) ∧ (s.connectKeys vif sme reply).pending = s.pending := by
  unfold State.connectKeys
  cases sme.key with
  | none =>
    dsimp only
    split_ifs <;> exact ⟨⟨rfl, rfl, rfl, rfl, le_rfl⟩, rfl⟩
  | some key =>
    dsimp only
    split_ifs <;> exact ⟨⟨rfl, rfl, rfl, rfl, le_rfl⟩, rfl⟩

theorem connectWith_spec (params : ModParams) (vif : ℕ) (s : State) (sme : Sme) (reply : ConnectReply) :
    Apart s (s.connectWith params vif sme reply) ∧
      ((s.connectWith params vif sme reply).pending = s.pending ∨ Accepted sme reply) ∧
      (Accepted sme reply → 0 < (s.connectWith params vif sme reply).pending) := by
  unfold State.connectWith
  by_cases hsae : sme.authType = .sae ∧ sme.externalAuthSupport = false
  · rw [if_pos hsae]
    refine ⟨⟨rfl, rfl, rfl, rfl, le_rfl⟩, .inl rfl, fun h => ?_⟩
    exact absurd (h.sae hsae.1) (by simp [hsae.2])
  rw [if_neg hsae]
  obtain ⟨hkeys, hpending⟩ := connectKeys_spec vif s sme reply
  obtain ⟨hsent, hsame, hok⟩ := sendSmConnectReq_spec params
    (s.connectKeys vif sme reply) sme reply
  have hapart := hkeys.trans hsent
  have hno : ∀ {r : Prop}, ((s.connectKeys vif sme reply).sendSmConnectReq params sme reply).1 ≠ 0 ∨
      reply.accepted ≠ true → (Accepted sme reply → r) := by
    rintro r (herror | hrefused) h
    · exact absurd (hok.mpr ⟨h.alloc, h.ie, h.auth⟩) herror
    · exact absurd h.accepted hrefused
  simp only
  by_cases herror : ((s.connectKeys vif sme reply).sendSmConnectReq params sme reply).1 ≠ 0
  · rw [if_pos herror]
    exact ⟨⟨hapart.up, hapart.tabled, hapart.broken, hapart.drvConnState, hapart.pending⟩,
      .inl (hsame.trans hpending), hno (.inl herror)⟩
  rw [if_neg herror]
  by_cases hdue : reply.accepted = true
  · simp only [if_pos hdue]
    obtain ⟨halloc, hie, hauth⟩ := hok.mp (not_not.mp herror)
    have haccepted : Accepted sme reply :=
      ⟨fun h => by simpa [h] using hsae, halloc, hie, hauth, hdue⟩
    exact ⟨⟨hapart.up, hapart.tabled, hapart.broken, hapart.drvConnState,
      hapart.pending.trans (Nat.le_succ _)⟩, .inr haccepted, fun _ => Nat.succ_pos _⟩
  · simp only [if_neg hdue]
    exact ⟨⟨hapart.up, hapart.tabled, hapart.broken, hapart.drvConnState, hapart.pending⟩,
      .inl (hsame.trans hpending), hno (.inr hdue)⟩

/-- An interface that is open is in the table. -/
def Kept (s : State) : Prop := Right s ∧ (s.up = true → s.tabled = true)

theorem connect_kept (h : Kept s) {sme : Sme} {reply : ConnectReply}
    (hp : Proper s (.connect sme reply)) : Kept (s.connect params vif sme reply) := by
  unfold State.connect
  by_cases hleaving : s.drvConnState = .disconnecting
  · rw [if_pos hleaving]
    exact h
  rw [if_neg hleaving]
  obtain ⟨hapart, -, haccepted⟩ := connectWith_spec params vif
    { s with drvConnState := .connecting } (s.tried sme) reply
  refine ⟨⟨hapart.broken.trans h.1.1, fun _ => ?_⟩, fun hup => ?_⟩
  · rw [Settled, hapart.drvConnState]
    rcases hp with hstate | hnow | hbefore
    · exact absurd hstate hleaving
    · exact haccepted hnow
    · exact hbefore.trans_le hapart.pending
  · exact hapart.tabled.trans (h.2 (hapart.up.symm.trans hup))

theorem disconnect_kept (h : Kept s) {reason : ℕ} {alloc accepted : Bool}
    (hp : Proper s (.disconnect reason alloc accepted)) :
    Kept (s.disconnect reason alloc accepted) := by
  unfold State.disconnect
  by_cases hconnected : s.drvConnState = .connected
  · rw [if_pos hconnected]
    refine ⟨⟨h.1.1, fun _ => ?_⟩, h.2⟩
    have hdue := hp hconnected
    simpa [Settled] using hdue
  · rw [if_neg hconnected]
    exact ⟨⟨h.1.1, fun _ hno => absurd hno (by simp)⟩, h.2⟩

theorem smConnectInd_kept (h : Kept s) {statusCode apIdx : ℕ} {roamed : Bool} {bssid : MacAddr}
    (hp : s.tabled = true) : Kept (s.rxSmConnectInd statusCode roamed apIdx bssid) := by
  unfold State.rxSmConnectInd State.takeStatus
  by_cases hok : statusCode = 0
  · simp only [hp, Bool.not_true, Bool.false_eq_true, if_false, if_pos hok]
    exact ⟨⟨h.1.1, fun _ => ⟨by simp [hok], rfl, rfl⟩⟩, fun _ => rfl⟩
  · simp only [hp, Bool.not_true, Bool.false_eq_true, if_false, if_neg hok]
    exact ⟨⟨h.1.1, fun _ hno => absurd hno (by simp [hok])⟩, fun _ => rfl⟩

theorem tellDisconnect_spec (vif : ℕ) (s : State) (ftOverDs reassoc : Bool) :
    (s.tellDisconnect vif ftOverDs reassoc).broken = s.broken ∧
      (s.tellDisconnect vif ftOverDs reassoc).up = s.up ∧
      (s.tellDisconnect vif ftOverDs reassoc).tabled = s.tabled ∧
      (s.up = true → (s.tellDisconnect vif ftOverDs reassoc).told = true →
        (s.tellDisconnect vif ftOverDs reassoc).roaming = true) := by
  unfold State.tellDisconnect
  dsimp only
  split_ifs with hp2p hup
  all_goals refine ⟨rfl, rfl, rfl, fun h => ?_⟩
  all_goals first | exact fun htold => ((Bool.and_eq_true _ _).mp htold).2 | exact absurd h ‹_›

theorem smDisconnectInd_kept (h : Kept s) {ftOverDs reassoc : Bool}
    (hp : s.tabled = true → s.ap.isSome = true) :
    Kept (s.rxSmDisconnectInd vif ftOverDs reassoc) := by
  unfold State.rxSmDisconnectInd
  by_cases htabled : s.tabled = true
  · obtain ⟨hbroken, hup, hkept, htold⟩ := tellDisconnect_spec vif
      { s with leaving := false } ftOverDs reassoc
    rw [if_neg (by simp [htabled])]
    split
    · rename_i hnone
      have hap := hp htabled
      rw [hnone] at hap
      cases hap
    · exact ⟨⟨hbroken.trans h.1.1, fun h => htold (hup.symm.trans h)⟩,
        fun _ => hkept.trans htabled⟩
  · have hdown : s.up ≠ true := fun hup => htabled (h.2 hup)
    rw [if_pos (by simp [htabled])]
    exact ⟨⟨h.1.1, fun hup => absurd hup hdown⟩, fun hup => absurd hup hdown⟩

theorem step_kept {t : State} (a : Act) (hp : Proper s a) (hstep : step params vif s a = some t)
    (h : Kept s) : Kept t := by
  unfold step at hstep
  split_ifs at hstep with henabled
  obtain rfl := Option.some.inj hstep
  cases a with
  | connect sme reply => exact connect_kept h hp
  | disconnect reason alloc accepted => exact disconnect_kept h hp
  | smConnectInd statusCode roamed apIdx bssid => exact smConnectInd_kept h hp
  | smDisconnectInd ftOverDs reassoc => exact smDisconnectInd_kept h hp
  | smExternalAuthRequiredInd started alloc =>
    have htabled : s.tabled = true := hp
    simp only [act, State.rxSmExternalAuthRequiredInd]
    rw [if_neg (by simp [htabled])]
    split_ifs
    · exact ⟨⟨h.1.1, h.1.2⟩, h.2⟩
    · exact ⟨⟨h.1.1, h.1.2⟩, h.2⟩
  | externalAuth status alloc =>
    simp only [act, State.externalAuthDone]
    by_cases hno : (!s.externalAuth) = true
    · rw [if_pos hno]
      exact ⟨⟨h.1.1, h.1.2⟩, h.2⟩
    · rw [if_neg hno]
      exact ⟨⟨h.1.1, h.1.2⟩, h.2⟩
  | rwnxOpen first instNbr =>
    refine ⟨⟨h.1.1, fun _ => ?_⟩, fun _ => rfl⟩
    cases first <;> exact hp
  | closeCarrier => exact ⟨⟨h.1.1, fun hup => by cases hup⟩, fun hup => by cases hup⟩
  | closeRemove busUp alloc queued =>
    have hdown : s.up ≠ true := by
      simp only [enabled, Bool.and_eq_true, Bool.not_eq_true'] at henabled
      simp [henabled.1]
    have hsame : (s.closeRemove busUp alloc queued).up = s.up ∧
        (s.closeRemove busUp alloc queued).broken = s.broken := by
      unfold State.closeRemove
      dsimp only
      split_ifs <;> exact ⟨rfl, rfl⟩
    have hclosed : (s.closeRemove busUp alloc queued).up ≠ true := hsame.1 ▸ hdown
    exact ⟨⟨hsame.2.trans h.1.1, fun hup => absurd hup hclosed⟩, fun hup => absurd hup hclosed⟩

/-- A step after which all is right was a proper one. -/
theorem proper_of_right {t : State} (a : Act) (hstep : step params vif s a = some t)
    (ht : Right t) : Proper s a := by
  unfold step at hstep
  split_ifs at hstep with henabled
  obtain rfl := Option.some.inj hstep
  cases a with
  | connect sme reply =>
    by_cases hleaving : s.drvConnState = .disconnecting
    · exact .inl hleaving
    obtain ⟨hapart, hpending, -⟩ := connectWith_spec params vif
      { s with drvConnState := .connecting } (s.tried sme) reply
    have hafter := ht.2
    simp only [act, State.connect, if_neg hleaving] at hafter
    have hdue := hafter (hapart.up.trans henabled)
    rw [Settled, hapart.drvConnState] at hdue
    rcases hpending with hsame | haccepted
    · exact .inr (.inr (hdue.trans_eq hsame))
    · exact .inr (.inl haccepted)
  | disconnect reason alloc accepted =>
    intro hconnected
    have hafter := ht.2
    simp only [act, State.disconnect, if_pos hconnected] at hafter
    have hdue := hafter henabled
    simpa [Settled] using hdue
  | smConnectInd statusCode roamed apIdx bssid =>
    by_contra htabled
    have hbroken := ht.1
    simp only [act, State.rxSmConnectInd] at hbroken
    rw [if_pos (by simpa [Proper] using htabled)] at hbroken
    cases hbroken
  | smDisconnectInd ftOverDs reassoc =>
    intro htabled
    by_contra hap
    have hbroken := ht.1
    simp only [act, State.rxSmDisconnectInd] at hbroken
    rw [if_neg (by simp [htabled]), Option.not_isSome_iff_eq_none.mp hap] at hbroken
    cases hbroken
  | smExternalAuthRequiredInd started alloc =>
    by_contra htabled
    have hbroken := ht.1
    simp only [act, State.rxSmExternalAuthRequiredInd] at hbroken
    rw [if_pos (by simpa [Proper] using htabled)] at hbroken
    cases hbroken
  | rwnxOpen first instNbr =>
    have hafter := ht.2 rfl
    cases first <;> exact hafter
  | _ => trivial

theorem settled_iff (keys : KeyTable.State) (as : List Act) {u : State}
    (hrun : exec (step params vif) (init keys) as = some u) :
    Throughout (step params vif) Right (init keys) as ↔
      Meets (step params vif) Proper (init keys) as :=
  throughout_iff_of_exec (fun _ a _ hp hstep h => step_kept a hp hstep h) (fun _ h => h.1)
    (fun _ a _ _ hstep ht => proper_of_right a hstep ht)
    ⟨⟨rfl, fun hup => by cases hup⟩, fun hup => by cases hup⟩ hrun

/-- A network whose access point authenticates no station by its key. -/
def wepNetwork : Sme where
  channel := none
  bssid := none
  ssid := [110, 101, 116]
  authType := .automatic
  ie := []
  externalAuthSupport := false
  mfpRequired := false
  cipherGroup := KeyTable.WLAN_CIPHER_SUITE_WEP40
  ciphersPairwise := [KeyTable.WLAN_CIPHER_SUITE_WEP40]
  controlPort := false
  controlPortEthertype := 0
  controlPortNoEncrypt := false
  key := none
  keyIdx := 0

def wepRun : List Act :=
  let reply : ConnectReply := ⟨⟨true, true, ⟨0, 0⟩, none⟩, true, true, CO_OK⟩
  [.rwnxOpen true 0, .connect wepNetwork reply,
    .smConnectInd WLAN_STATUS_NOT_SUPPORTED_AUTH_ALG false 0 0, .connect wepNetwork reply,
    .smConnectInd 0 false 3 1]

theorem settled_iff_wepRun :
    Throughout (step ⟨0, false, 0⟩ 0) Right (init (KeyTable.init fun _ => .station)) wepRun ↔
      Meets (step ⟨0, false, 0⟩ 0) Proper (init (KeyTable.init fun _ => .station)) wepRun :=
  settled_iff (KeyTable.init fun _ => .station) wepRun rfl

/-! ## WEP -/

def Sme.isBoth (sme : Sme) : Bool :=
  isWepSuite sme.cipherGroup && sme.ciphersPairwise.head?.any isWepSuite

/-- The request goes out. -/
def Sme.goesOut (sme : Sme) (reply : ConnectReply) : Bool :=
  reply.alloc && sme.ie.length ≤ 256 && (authAlg sme.authType).isSome

/-- Both suites are of WEP, and the driver is to choose how to authenticate. -/
def negotiates (sme : Sme) (reply : ConnectReply) : Bool :=
  sme.isBoth && sme.authType = .automatic && reply.alloc && sme.ie.length ≤ 256

/-- Beside the state: how the last request asked to authenticate, until it ends, whether the last
answer was a success, the refusals of a way to authenticate with WEP, and the requests after
which the driver does not know what was refused. -/
structure Ledger where
  state : State
  asked : Option AuthType
  joined : Bool
  refusals : ℕ
  resets : ℕ

namespace Ledger

def connect (m : Ledger) (t : State) (sme : Sme) (reply : ConnectReply) : Ledger :=
  let tried := m.state.tried sme
  if m.state.drvConnState = .disconnecting ∨
      tried.authType = .sae ∧ tried.externalAuthSupport = false then { m with state := t }
  else { m with
    state := t
    asked := if tried.goesOut reply && reply.accepted then some tried.authType else none
    resets := if negotiates sme reply then m.resets else m.resets+1 }

def note (m : Ledger) (t : State) : Act → Ledger
  | .connect sme reply => m.connect t sme reply
  | .smConnectInd statusCode roamed _ _ => { m with
    state := t
    asked := if roamed then m.asked else none
    joined := statusCode = 0
    refusals := if statusCode = WLAN_STATUS_NOT_SUPPORTED_AUTH_ALG ∧ m.state.wepEnabled = true then
      m.refusals+1 else m.refusals }
  | _ => { m with state := t }

end Ledger

def ledgerStep (params : ModParams) (vif : ℕ) (m : Ledger) (a : Act) : Option Ledger :=
  (step params vif m.state a).map fun t => m.note t a

def ledgerInit (keys : KeyTable.State) : Ledger := ⟨init keys, none, false, 0, 0⟩

/-- An indication comes to an interface in the table, and answers the last request or tells of a
roaming. Only a way that is not that of the access point is refused as a way. -/
def Answered (way : AuthType) (m : Ledger) : Act → Prop
  | .smConnectInd statusCode roamed _ _ => m.state.tabled = true ∧
    if roamed then m.joined = true ∧ statusCode ≠ WLAN_STATUS_NOT_SUPPORTED_AUTH_ALG
    else ∃ asked, m.asked = some asked ∧
      (statusCode = WLAN_STATUS_NOT_SUPPORTED_AUTH_ALG → asked ≠ way)
  | _ => True

/-- What was learned bounds the refusals. -/
structure Learned (way : AuthType) (m : Ledger) : Prop where
  unknown : m.state.wepEnabled = false → m.refusals ≤ 2*m.resets
  sendable : m.state.wepEnabled = true → (authAlg m.state.lastAuthType).isSome = true ∧
    m.state.lastAuthType ≠ .automatic
  known : m.state.wepEnabled = true → m.state.lastAuthType = way → m.refusals ≤ 2*m.resets+1
  tried : m.state.wepEnabled = true → m.state.wepAuthErr = false → m.state.lastAuthType ≠ way →
    m.refusals ≤ 2*m.resets ∧ (m.state.lastAuthType ≠ .openSystem →
      m.state.lastAuthType ≠ .sharedKey → m.refusals+1 ≤ 2*m.resets)
  refused : m.state.wepEnabled = true → m.state.wepAuthErr = true →
    m.joined = false ∧ m.asked = none ∧ m.state.lastAuthType ≠ way ∧
      m.refusals ≤ 2*m.resets+1 ∧ (m.state.lastAuthType ≠ .openSystem →
        m.state.lastAuthType ≠ .sharedKey → m.refusals ≤ 2*m.resets)
  asked : ∀ t, m.asked = some t → m.state.wepEnabled = true → m.state.lastAuthType = t

variable {way : AuthType} {m : Ledger}

theorem sendSmConnectReq_wep (params : ModParams) (s : State) (sme : Sme) (reply : ConnectReply) :
    (s.sendSmConnectReq params sme reply).2.wepAuthErr = false ∧
      ((s.sendSmConnectReq params sme reply).2.wepEnabled = true ↔
        sme.goesOut reply = true ∧ sme.isBoth = true) ∧
      ((s.sendSmConnectReq params sme reply).2.wepEnabled = true →
        (s.sendSmConnectReq params sme reply).2.lastAuthType = sme.authType) := by
  unfold State.sendSmConnectReq Sme.goesOut
  cases halloc : reply.alloc with
  | false => simp
  | true =>
    by_cases hie : 256 < sme.ie.length
    · simp [hie]
    · cases hauth : authAlg sme.authType with
      | none => simp [hie]
      | some alg =>
        simp only [Bool.not_true, Bool.false_eq_true, if_false, if_neg hie]
        refine ⟨trivial, ?_, fun hboth => if_pos hboth⟩
        simp [Sme.isBoth, not_lt.mp hie]

theorem connect_wep (params : ModParams) (vif : ℕ) (s : State) (sme : Sme) (reply : ConnectReply)
    (hearly : ¬ (s.drvConnState = .disconnecting ∨
      (s.tried sme).authType = .sae ∧ (s.tried sme).externalAuthSupport = false)) :
    (s.connect params vif sme reply).wepAuthErr = false ∧
      ((s.connect params vif sme reply).wepEnabled = true ↔
        (s.tried sme).goesOut reply = true ∧ sme.isBoth = true) ∧
      ((s.connect params vif sme reply).wepEnabled = true →
        (s.connect params vif sme reply).lastAuthType = (s.tried sme).authType) := by
  rw [not_or] at hearly
  have hsent := sendSmConnectReq_wep params
    (({ s with drvConnState := .connecting }).connectKeys vif (s.tried sme) reply) (s.tried sme)
    reply
  simp only [State.connect, if_neg hearly.1, State.connectWith, if_neg hearly.2]
  split_ifs <;> exact hsent

/-- Nothing that was learned is touched. -/
theorem Learned.of_same {n : Ledger} (h : Learned way m)
    (henabled : n.state.wepEnabled = m.state.wepEnabled)
    (herr : n.state.wepAuthErr = m.state.wepAuthErr)
    (hlast : n.state.lastAuthType = m.state.lastAuthType) (hjoined : n.joined = m.joined)
    (hasked : n.asked = m.asked) (hrefusals : n.refusals = m.refusals)
    (hresets : n.resets = m.resets) : Learned way n := by
  constructor
  all_goals simp only [henabled, herr, hlast, hjoined, hasked, hrefusals, hresets]
  · exact h.unknown
  · exact h.sendable
  · exact h.known
  · exact h.tried
  · exact h.refused
  · exact h.asked

theorem isWep_of_isBoth {sme : Sme} (h : sme.isBoth = true) : sme.isWep = true := by
  unfold Sme.isBoth at h
  unfold Sme.isWep
  rw [((Bool.and_eq_true _ _).mp h).1, Bool.true_or]

/-- A request of both suites. -/
theorem tried_both {s : State} {sme : Sme} (h : sme.isBoth = true) :
    (s.tried sme).authType =
      wepAuthType s.wepEnabled s.wepAuthErr s.lastAuthType sme.authType := by
  rw [State.tried, if_pos (isWep_of_isBoth h)]

theorem Learned.bound (h : Learned way m) : m.refusals ≤ 2*m.resets+1 := by
  by_cases henabled : m.state.wepEnabled = true
  · by_cases hway : m.state.lastAuthType = way
    · exact h.known henabled hway
    · cases herr : m.state.wepAuthErr with
      | false => exact (h.tried henabled herr hway).1.trans (Nat.le_succ _)
      | true => exact (h.refused henabled herr).2.2.2.1
  · exact (h.unknown (by simpa using henabled)).trans (Nat.le_succ _)

/-- A request after which nothing is known. -/
theorem learned_reset (h : Learned way m) {n : Ledger} (hrefusals : n.refusals = m.refusals)
    (hresets : n.resets = m.resets+1) (herr : n.state.wepAuthErr = false)
    (hsendable : n.state.wepEnabled = true → (authAlg n.state.lastAuthType).isSome = true ∧
      n.state.lastAuthType ≠ .automatic)
    (hasked : ∀ t, n.asked = some t → n.state.wepEnabled = true → n.state.lastAuthType = t) :
    Learned way n := by
  have hbound := h.bound
  refine ⟨fun _ => ?_, hsendable, fun _ _ => ?_, fun _ _ _ => ⟨?_, fun _ _ => ?_⟩,
    fun _ htrue => ?_, hasked⟩
  · omega
  · omega
  · omega
  · omega
  · rw [herr] at htrue
    cases htrue

/-- A request that the driver chooses the way of. -/
theorem learned_tried (hway : way = .openSystem ∨ way = .sharedKey) (h : Learned way m)
    {n : Ledger} (hrefusals : n.refusals = m.refusals) (hresets : n.resets = m.resets)
    (henabled : n.state.wepEnabled = true) (herr : n.state.wepAuthErr = false)
    (hlast : n.state.lastAuthType = wepAuthType m.state.wepEnabled m.state.wepAuthErr
      m.state.lastAuthType .automatic)
    (hasked : ∀ t, n.asked = some t → n.state.lastAuthType = t) : Learned way n := by
  have hdone : ∀ {last : AuthType}, n.state.lastAuthType = last →
      ((authAlg last).isSome = true ∧ last ≠ .automatic) →
      (last = way → m.refusals ≤ 2*m.resets+1) →
      (last ≠ way → m.refusals ≤ 2*m.resets ∧ (last ≠ .openSystem → last ≠ .sharedKey →
        m.refusals+1 ≤ 2*m.resets)) → Learned way n := by
    rintro last rfl hsendable hknown htried
    refine ⟨fun hno => ?_, fun _ => hsendable, fun _ => ?_, fun _ _ => ?_, fun _ htrue => ?_,
      fun t ht _ => hasked t ht⟩
    · rw [henabled] at hno
      cases hno
    · rw [hrefusals, hresets]
      exact hknown
    · rw [hrefusals, hresets]
      exact htried
    · rw [herr] at htrue
      cases htrue
  cases hold : m.state.wepEnabled with
  | false =>
    -- Nothing is known, and the driver begins with the key.
    have hnew : n.state.lastAuthType = .sharedKey := by
      rw [hlast, hold]
      rfl
    have hbound := h.unknown hold
    exact hdone hnew ⟨rfl, by decide⟩ (fun _ => hbound.trans (Nat.le_succ _))
      fun _ => ⟨hbound, fun _ hno => absurd rfl hno⟩
  | true =>
    rw [hold] at hlast
    cases hrefused : m.state.wepAuthErr with
    | false =>
      rw [hrefused] at hlast
      exact hdone hlast (h.sendable hold) (h.known hold) (h.tried hold hrefused)
    | true =>
      -- The last way was refused. The other one is tried.
      obtain ⟨-, -, hnot, hbound, hother⟩ := h.refused hold hrefused
      rw [hrefused] at hlast
      by_cases hshared : m.state.lastAuthType = .sharedKey
      · have hopen : way = .openSystem :=
          hway.resolve_right fun he => hnot (hshared.trans he.symm)
        have hnew : n.state.lastAuthType = .openSystem := hlast.trans (if_pos hshared)
        exact hdone hnew ⟨rfl, by decide⟩ (fun _ => hbound) fun hne => absurd hopen.symm hne
      · have hnew : n.state.lastAuthType = .sharedKey := hlast.trans (if_neg hshared)
        refine hdone hnew ⟨rfl, by decide⟩ (fun _ => hbound) fun hne => ⟨?_, fun _ hno =>
          absurd rfl hno⟩
        have hopen : way = .openSystem := hway.resolve_right fun he => hne he.symm
        exact hother (fun he => hnot (he.trans hopen.symm)) hshared

/-- No request is sent with the type that leaves the choice open. -/
theorem wepAuthType_ne (h : m.state.wepEnabled = true → (authAlg m.state.lastAuthType).isSome = true ∧
    m.state.lastAuthType ≠ .automatic) (asked : AuthType) :
    wepAuthType m.state.wepEnabled m.state.wepAuthErr m.state.lastAuthType asked ≠ .automatic ∧
      (asked = .automatic → (authAlg (wepAuthType m.state.wepEnabled m.state.wepAuthErr
        m.state.lastAuthType asked)).isSome = true) := by
  unfold wepAuthType
  by_cases hauto : asked = .automatic
  · simp only [if_pos hauto]
    split_ifs with hrefused hlast hkeep
    · exact ⟨by decide, fun _ => rfl⟩
    · exact ⟨by decide, fun _ => rfl⟩
    · have henabled : m.state.wepEnabled = true := ((Bool.and_eq_true _ _).mp hkeep).1
      exact ⟨(h henabled).2, fun _ => (h henabled).1⟩
    · exact ⟨by decide, fun _ => rfl⟩
  · simp only [if_neg hauto]
    split_ifs
    · exact ⟨by decide, fun he => absurd he hauto⟩
    · exact ⟨by decide, fun he => absurd he hauto⟩
    · exact ⟨hauto, fun he => absurd he hauto⟩
    · exact ⟨hauto, fun he => absurd he hauto⟩

theorem learned_connect (params : ModParams) (vif : ℕ)
    (hway : way = .openSystem ∨ way = .sharedKey) (h : Learned way m) (sme : Sme)
    (reply : ConnectReply) :
    Learned way (m.connect (m.state.connect params vif sme reply) sme reply) := by
  unfold Ledger.connect
  by_cases hearly : m.state.drvConnState = .disconnecting ∨
      (m.state.tried sme).authType = .sae ∧ (m.state.tried sme).externalAuthSupport = false
  · have hsame : (m.state.connect params vif sme reply).wepEnabled = m.state.wepEnabled ∧
        (m.state.connect params vif sme reply).wepAuthErr = m.state.wepAuthErr ∧
        (m.state.connect params vif sme reply).lastAuthType = m.state.lastAuthType := by
      unfold State.connect
      by_cases hleaving : m.state.drvConnState = .disconnecting
      · rw [if_pos hleaving]
        exact ⟨rfl, rfl, rfl⟩
      · rw [if_neg hleaving, State.connectWith, if_pos (hearly.resolve_left hleaving)]
        exact ⟨rfl, rfl, rfl⟩
    simp only [if_pos hearly]
    exact h.of_same hsame.1 hsame.2.1 hsame.2.2 rfl rfl rfl rfl
  · obtain ⟨herr, henabled, hlast⟩ := connect_wep params vif m.state sme reply hearly
    have hasked : ∀ t, (if (m.state.tried sme).goesOut reply && reply.accepted then
        some (m.state.tried sme).authType else none) = some t →
        (m.state.connect params vif sme reply).wepEnabled = true →
        (m.state.connect params vif sme reply).lastAuthType = t := by
      intro t ht hboth
      split_ifs at ht
      exact (hlast hboth).trans (Option.some.inj ht)
    simp only [if_neg hearly]
    by_cases hneg : negotiates sme reply = true
    · have hparts := hneg
      simp only [negotiates, Bool.and_eq_true, decide_eq_true_eq] at hparts
      obtain ⟨⟨⟨hboth, hauto⟩, halloc⟩, hie⟩ := hparts
      have hway' := tried_both (s := m.state) hboth
      rw [hauto] at hway'
      have hout : (m.state.tried sme).goesOut reply = true := by
        have hsendable := (wepAuthType_ne h.sendable .automatic).2 rfl
        rw [← hway'] at hsendable
        simp only [Sme.goesOut, Bool.and_eq_true, decide_eq_true_eq]
        exact ⟨⟨halloc, hie⟩, hsendable⟩
      have hon := henabled.mpr ⟨hout, hboth⟩
      exact learned_tried hway h rfl (if_pos hneg) hon herr ((hlast hon).trans hway')
        fun t ht => hasked t ht hon
    · refine learned_reset h rfl (if_neg hneg) herr (fun hon => ?_) hasked
      obtain ⟨hout, hboth⟩ := henabled.mp hon
      rw [hlast hon]
      refine ⟨((Bool.and_eq_true _ _).mp hout).2, ?_⟩
      rw [tried_both hboth]
      exact (wepAuthType_ne h.sendable sme.authType).1

theorem rxSmConnectInd_wep {s : State} (htabled : s.tabled = true) (statusCode : ℕ) (roamed : Bool)
    (apIdx : ℕ) (bssid : MacAddr) :
    (s.rxSmConnectInd statusCode roamed apIdx bssid).wepEnabled = s.wepEnabled ∧
      (s.rxSmConnectInd statusCode roamed apIdx bssid).lastAuthType = s.lastAuthType ∧
      (s.rxSmConnectInd statusCode roamed apIdx bssid).wepAuthErr =
        if statusCode = 0 ∧ s.wepEnabled = true then false
        else if statusCode = WLAN_STATUS_NOT_SUPPORTED_AUTH_ALG ∧ s.wepEnabled = true then true
        else s.wepAuthErr := by
  unfold State.rxSmConnectInd State.takeStatus
  simp only [htabled, Bool.not_true, Bool.false_eq_true, if_false]
  by_cases hok : statusCode = 0
  · simp only [if_pos hok]
    refine ⟨trivial, trivial, ?_⟩
    by_cases hon : s.wepEnabled = true
    · rw [if_pos hon, if_pos ⟨hok, hon⟩]
    · rw [if_neg hon, if_neg fun h => hon h.2, if_neg fun h => hon h.2]
  · simp only [if_neg hok]
    exact ⟨trivial, trivial, (if_neg fun h => hok h.1).symm⟩

/-- After a refusal the other way is the one of the access point. -/
theorem learned_refused {n : Ledger} (hon : m.state.wepEnabled = true)
    (hfirst : m.refusals ≤ 2*m.resets ∧ (m.state.lastAuthType ≠ .openSystem →
      m.state.lastAuthType ≠ .sharedKey → m.refusals+1 ≤ 2*m.resets))
    (h : Learned way m) (hne : m.state.lastAuthType ≠ way)
    (henabled : n.state.wepEnabled = m.state.wepEnabled)
    (hlast : n.state.lastAuthType = m.state.lastAuthType) (herr : n.state.wepAuthErr = true)
    (hjoined : n.joined = false) (hasked : n.asked = none)
    (hrefusals : n.refusals = m.refusals+1) (hresets : n.resets = m.resets) : Learned way n := by
  have hstill := henabled.trans hon
  constructor
  all_goals simp only [hlast, hrefusals, hresets]
  · intro hno
    rw [hstill] at hno
    cases hno
  · exact fun _ => h.sendable hon
  · exact fun _ hway => absurd hway hne
  · intro _ hno
    rw [herr] at hno
    cases hno
  · exact fun _ _ => ⟨hjoined, hasked, hne, Nat.succ_le_succ hfirst.1, hfirst.2⟩
  · intro t ht
    rw [hasked] at ht
    cases ht

theorem learned_smConnectInd (h : Learned way m) {statusCode apIdx : ℕ} {roamed : Bool}
    {bssid : MacAddr} (ha : Answered way m (.smConnectInd statusCode roamed apIdx bssid)) :
    Learned way (m.note (m.state.rxSmConnectInd statusCode roamed apIdx bssid)
      (.smConnectInd statusCode roamed apIdx bssid)) := by
  obtain ⟨htabled, hanswer⟩ := ha
  -- A refusal is no connection to roam with, and a request that is answered came after it.
  have hclear : m.state.wepEnabled = true → m.state.wepAuthErr = false := by
    intro hon
    cases herr : m.state.wepAuthErr with
    | false => rfl
    | true =>
      obtain ⟨hjoined, hasked, -⟩ := h.refused hon herr
      cases roamed with
      | true => exact absurd hanswer.1 (by simp [hjoined])
      | false =>
        obtain ⟨asked, hsome, -⟩ := hanswer
        exact absurd hsome (by simp [hasked])
  obtain ⟨henabled, hlast, herr⟩ := rxSmConnectInd_wep htabled statusCode roamed apIdx bssid
  by_cases hrefused : statusCode = WLAN_STATUS_NOT_SUPPORTED_AUTH_ALG ∧ m.state.wepEnabled = true
  · obtain ⟨hstatus, hon⟩ := hrefused
    cases roamed with
    | true => exact absurd hstatus hanswer.2
    | false =>
      obtain ⟨asked, hsome, hother⟩ := hanswer
      have hne : m.state.lastAuthType ≠ way := h.asked asked hsome hon ▸ hother hstatus
      have hfail : statusCode ≠ 0 := by
        rw [hstatus]
        decide
      rw [if_neg fun h => hfail h.1, if_pos ⟨hstatus, hon⟩] at herr
      exact learned_refused hon (h.tried hon (hclear hon) hne) h hne henabled hlast herr
        (decide_eq_false hfail) rfl (if_pos ⟨hstatus, hon⟩) rfl
  · have hsame : (m.state.rxSmConnectInd statusCode roamed apIdx bssid).wepAuthErr =
        m.state.wepAuthErr := by
      rw [herr, if_neg hrefused]
      split_ifs with hok
      · exact (hclear hok.2).symm
      · rfl
    constructor
    all_goals simp only [Ledger.note, henabled, hlast, hsame, if_neg hrefused]
    · exact h.unknown
    · exact h.sendable
    · exact h.known
    · exact h.tried
    · intro hon hno
      rw [hclear hon] at hno
      cases hno
    · cases roamed with
      | true => exact h.asked
      | false => exact fun t ht => by cases ht

/-- Only a request and its answer touch what is known about WEP. -/
theorem act_wep (params : ModParams) (vif : ℕ) (s : State) (a : Act)
    (hconnect : ∀ sme reply, a ≠ .connect sme reply)
    (hind : ∀ statusCode roamed apIdx bssid, a ≠ .smConnectInd statusCode roamed apIdx bssid) :
    (act params vif s a).wepEnabled = s.wepEnabled ∧
      (act params vif s a).wepAuthErr = s.wepAuthErr ∧
      (act params vif s a).lastAuthType = s.lastAuthType := by
  cases a with
  | connect sme reply => exact absurd rfl (hconnect sme reply)
  | smConnectInd statusCode roamed apIdx bssid =>
    exact absurd rfl (hind statusCode roamed apIdx bssid)
  | disconnect reason alloc accepted =>
    simp only [act, State.disconnect]
    split_ifs <;> exact ⟨rfl, rfl, rfl⟩
  | smDisconnectInd ftOverDs reassoc =>
    simp only [act, State.rxSmDisconnectInd, State.tellDisconnect]
    split_ifs <;> first | exact ⟨rfl, rfl, rfl⟩ | split <;> exact ⟨rfl, rfl, rfl⟩
  | smExternalAuthRequiredInd started alloc =>
    simp only [act, State.rxSmExternalAuthRequiredInd]
    split_ifs <;> exact ⟨rfl, rfl, rfl⟩
  | externalAuth status alloc =>
    simp only [act, State.externalAuthDone]
    split_ifs <;> exact ⟨rfl, rfl, rfl⟩
  | rwnxOpen first instNbr => exact ⟨rfl, rfl, rfl⟩
  | closeCarrier => exact ⟨rfl, rfl, rfl⟩
  | closeRemove busUp alloc queued =>
    simp only [act, State.closeRemove]
    split_ifs <;> exact ⟨rfl, rfl, rfl⟩

theorem learned_step (hway : way = .openSystem ∨ way = .sharedKey) {n : Ledger} (a : Act)
    (ha : Answered way m a) (hstep : ledgerStep params vif m a = some n) (h : Learned way m) :
    Learned way n := by
  obtain ⟨t, ht, rfl⟩ := Option.map_eq_some_iff.mp hstep
  unfold step at ht
  split_ifs at ht with henabled
  obtain rfl := Option.some.inj ht
  have hrest : (∀ sme reply, a ≠ .connect sme reply) →
      (∀ statusCode roamed apIdx bssid, a ≠ .smConnectInd statusCode roamed apIdx bssid) →
      Learned way { m with state := act params vif m.state a } := by
    intro hconnect hind
    obtain ⟨hon, herr, hlast⟩ := act_wep params vif m.state a hconnect hind
    exact h.of_same hon herr hlast rfl rfl rfl rfl
  cases a with
  | connect sme reply => exact learned_connect params vif hway h sme reply
  | smConnectInd statusCode roamed apIdx bssid => exact learned_smConnectInd h ha
  | _ => exact hrest (by simp) (by simp)

theorem wep_refusals (keys : KeyTable.State) (hway : way = .openSystem ∨ way = .sharedKey)
    (as : List Act) (ha : Meets (ledgerStep params vif) (Answered way) (ledgerInit keys) as)
    (hrun : exec (ledgerStep params vif) (ledgerInit keys) as = some m) :
    m.refusals ≤ 2*m.resets+1 := by
  have hinit : Learned way (ledgerInit keys) := by
    refine ⟨fun _ => le_rfl, fun hon => ?_, fun hon => ?_, fun hon => ?_, fun hon => ?_,
      fun t ht => ?_⟩
    · cases hon
    · cases hon
    · cases hon
    · cases hon
    · cases ht
  exact (exec_invariant (fun _ a _ hp hstep h => learned_step hway a hp hstep h) hinit ha
    hrun).bound

theorem wep_refusals_wepRun :
    ∃ m, exec (ledgerStep ⟨0, false, 0⟩ 0) (ledgerInit (KeyTable.init fun _ => .station)) wepRun =
      some m ∧ m.refusals = 1 ∧ m.refusals ≤ 2*m.resets+1 := by
  refine ⟨_, rfl, rfl, wep_refusals (KeyTable.init fun _ => .station) (.inl rfl)
    wepRun ?_ rfl⟩
  refine ⟨trivial, fun t ht => ?_⟩
  obtain rfl := Option.some.inj ht
  refine ⟨trivial, fun t ht => ?_⟩
  obtain rfl := Option.some.inj ht
  refine ⟨⟨rfl, .sharedKey, rfl, fun _ => by decide⟩, fun t ht => ?_⟩
  obtain rfl := Option.some.inj ht
  refine ⟨trivial, fun t ht => ?_⟩
  obtain rfl := Option.some.inj ht
  exact ⟨⟨rfl, .openSystem, rfl, fun h => by cases h⟩, fun _ _ => trivial⟩

end AIC.Connection
