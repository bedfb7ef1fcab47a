import Aic8800.RxRelayReturns

/-!
# One forwarding policy

Every MSDU for an access point is sent again and handed up as it should be, over
every order of calls, exactly if each call returns and takes each MSDU for what
it is. On the plain path that fails for isolated stations, a VLAN and a mesh; in
an A-MSDU and behind the fragment path the descriptor of the whole frame and the
interface of the access point decide for every MSDU.
-/

set_option autoImplicit false

namespace AIC.RxRelayPolicy
open AIC.ReorderMachine hiding step
open AIC.RxRelay AIC.RxRelayQueue AIC.RxRelayReturns
open AIC.MsduPool hiding Act step init
open AIC.RxDataInd hiding amsduTurn rxDataSkb deliver finish branch apBranch staBranch reorder
  flushThen Result rwnxRxdataindAicwf
open AIC.RxDataAmsdu AIC.RxDataOwnership AIC.RxDataConsumed
open AIC.DefragMachine (RxFrame DefragCtrlInfo findDefrag)
open AIC.RxDataAccess (NX_REMOTE_STA_MAX)
open Lib.LoopRun Lib.GuardedRun

/-- Sent again as often as it should be, and handed up or waiting for it, or dropped because a frame
with its number waited. -/
structure Right (waits : ℕ) (m : Msdu) : Prop where
  resent : m.places.count .wireless = m.due.resend.toNat
  up : m.places.count .stack+waits = m.due.handUp.toNat ∨
    m.duplicate = true ∧ m.places.count .stack+waits = 0

structure Settled (s : Machine) : Prop where
  returned : s.hung = false
  right : ∀ m ∈ s.msdus, Right (waiting s.hw.pool m.k) m

instance (waits : ℕ) (m : Msdu) : Decidable (Right waits m) :=
  decidable_of_iff (_ ∧ (_ ∨ _)) ⟨fun h => ⟨h.1, h.2⟩, fun h => ⟨h.resent, h.up⟩⟩

instance (s : Machine) : Decidable (Settled s) :=
  decidable_of_iff (_ ∧ ∀ m ∈ s.msdus, Right (waiting s.hw.pool m.k) m)
    ⟨fun h => ⟨h.1, h.2⟩, fun h => ⟨h.returned, h.right⟩⟩

/-! ## What the firmware promises -/

/-- The first MSDU of a frame, with its destination address. -/
def firstSkb (f : RxFrame) : SkBuff :=
  if f.isAmsdu then subSkb (skbPull (f.pullLen-8) f.skb) else ethernetSkb f

/-- The destination index is that of the station with the address. -/
structure Named (s : Machine) (hdr : HwRxhdr) (skb : SkBuff) : Prop where
  known : hdr.flagsDstIdx = RWNX_INVALID_STA ∨
    hdr.flagsDstIdx < NX_REMOTE_STA_MAX+NX_VIRT_DEV_MAX
  names : ∀ i < NX_REMOTE_STA_MAX+NX_VIRT_DEV_MAX, (s.hw.staTable i).valid = true →
    (s.macAddr i = skb.slice 0 6 ↔ hdr.flagsDstIdx = i)

def Promised (s : Machine) : Act → Prop
  | .rxdataind _ hdr skb =>
    (frameOf hdr skb).isData = true → Named s hdr (firstSkb (frameOf hdr skb))
  | _ => True

/-! ## When it follows the policy -/

/-- An MSDU for `a` on an interface is taken for one for `d`, and sent again or not. Where it has to
be sent again it is, its copy is made, and it is a unicast frame or not as taken; where it has not,
only a failing copy of a multicast frame keeps it from being sent. -/
def Agrees (vif : Vif) (a d : Addressee) (resend copied : Bool) : Prop :=
  if !vif.apIsolate && a != .outside then
    resend = true ∧ copied = true ∧ (d = .member ↔ a = .member)
  else resend = true → d ≠ .member ∧ copied = false

instance (vif : Vif) (a d : Addressee) (resend copied : Bool) :
    Decidable (Agrees vif a d resend copied) :=
  inferInstanceAs (Decidable (if !vif.apIsolate && a != .outside then
    resend = true ∧ copied = true ∧ (d = .member ↔ a = .member)
  else resend = true → d ≠ .member ∧ copied = false))

/-- Who `rwnx_rx_data_skb` takes the frames of a list for. -/
def taken (hw : Hw) (hdr : HwRxhdr) (vif : Vif) (mcast : Bool) : Addressee :=
  if mcast then .group
  else if vif.iftype == .meshPoint then
    if hdr.flagsDstIdx != RWNX_INVALID_STA then .member else .outside
  else if inBss hw hdr vif then .member else .outside

/-- Whom it sends frames to again. -/
def resends (vif : Vif) (d : Addressee) : Bool :=
  vif.isAp && !vif.apIsolate && d != .outside || vif.iftype == .meshPoint && d == .member

section Conditions
variable (s : Machine) (env : RelayEnv) (hdr : HwRxhdr) (f : RxFrame)

/-- The MSDUs of a list, on interface `base`, for the interface of the frame. -/
def ListAgrees (i : ℕ) (base : Vif) (list : List SkBuff) : Prop :=
  ∀ vif ∈ frameVif s.hw hdr, apLike vif.iftype = true → ∀ j skb, list[j]? = some skb →
    Agrees vif (addressee s.hw s.macAddr vif skb) (taken s.hw hdr base (firstMcast list))
      (resends base (taken s.hw hdr base (firstMcast list))) (env.copyExpand i j)

/-- An interface with its own branch; there it is isolation that is not looked at. -/
def PlainAgrees (vif : Vif) (r : Ready) : Prop :=
  (vif.iftype = .ap ∨ vif.iftype = .p2pGo) ∧
    Agrees vif (addressee s.hw s.macAddr vif r.skb) (addressee s.hw s.macAddr vif r.skb)
      (addressee s.hw s.macAddr vif r.skb != .outside) (env.copyExpand 0 0) ∧
    (addressee s.hw s.macAddr vif r.skb ≠ .member → r.isQos = true → hdr.flagsNeedReord = true →
      dropped env.kmalloc (poolFor s.hw vif) vif.iftype.reord r = true →
      waits s.hw.pool vif r = true)

def WholeAgrees : Prop :=
  f.flagsIs80211Mpdu = true ∨ ∀ vif ∈ frameVif s.hw hdr, apLike vif.iftype = true →
    f.isData = true → PlainAgrees s env hdr vif (readyOf f)

def FragmentAgrees : Prop :=
  match findDefrag f s.hw.defragList with
  | some c => c.nextFn = f.fragNum → f.moreFrag = false →
    ∀ base ∈ getVif s.hw hdr.flagsVifIdx, ∀ d ∈ c.append env.defragRoom f,
      ListAgrees s env hdr 0 base (splitList env hdr 0 (SkBuff.ofList d.skb))
  | none => f.moreFrag = false → WholeAgrees s env hdr f

def Follows : Prop :=
  if f.isData && f.isAmsdu then
    ∀ base ∈ getVif s.hw hdr.flagsVifIdx, ∀ i g,
      (subframes (amsduSkb f).len (amsduSkb f))[i]? = some g →
      ListAgrees s env hdr i base (splitList env hdr i (subSkb g))
  else if f.isData && isFragment f then FragmentAgrees s env hdr f
  else WholeAgrees s env hdr f

end Conditions

/-- A call returns and follows the policy; no MSDU that is still to be handed up goes with its
station. -/
def Apt (s : Machine) : Act → Prop
  | .rxdataind env hdr skb =>
    Returns s.hw env hdr (frameOf hdr skb) ∧ Follows s env hdr (frameOf hdr skb)
  | .deinitSta mac => ∀ info ∈ findInfo mac s.hw.pool.stasReordList, ∀ e ∈ info.elements,
    e.msdu.forward = true → ∀ m ∈ s.msdus, m.k = e.skb → m.duplicate = true
  | _ => True

/-! ## One list -/

def Good (vif : Vif) (a : Addressee) (places : List Place) : Prop :=
  places.count .wireless = (due vif a).resend.toNat ∧
    places.count .stack = (due vif a).handUp.toNat

theorem good_iff (vif : Vif) (a d : Addressee) (resend copied : Bool) :
    Good vif a ((if resend && copied then [.wireless] else [])++
      if !(resend && d == .member) then [.stack] else []) ↔ Agrees vif a d resend copied := by
  unfold Good Agrees due
  cases vif.apIsolate <;> cases a <;> cases d <;> cases resend <;> cases copied <;> decide

theorem resendForward_eq (hw : Hw) (hdr : HwRxhdr) (vif : Vif) (mcast : Bool) :
    resendForward hw hdr vif mcast = (resends vif (taken hw hdr vif mcast),
      !(resends vif (taken hw hdr vif mcast) && taken hw hdr vif mcast == .member)) := by
  unfold resendForward resends taken
  generalize inBss hw hdr vif = member
  generalize (hdr.flagsDstIdx != RWNX_INVALID_STA) = known
  obtain ⟨vifIndex, iftype, up, apIsolate⟩ := vif
  cases iftype <;> cases apIsolate <;> cases mcast <;> cases member <;> cases known <;> rfl

section List
variable {s : Machine} {env : RelayEnv} {hdr : HwRxhdr}

/-- Each MSDU of a list becomes what it should exactly if it is taken for what it is. -/
theorem list_good {i : ℕ} {base : Vif} {skb : SkBuff} (vif : Vif) :
    (∀ h ∈ (rxDataSkb s.hw env hdr i base skb).getD [],
      Good vif (addressee s.hw s.macAddr vif h.skb) h.places) ↔
    ∀ j m, (splitList env hdr i skb)[j]? = some m →
      Agrees vif (addressee s.hw s.macAddr vif m)
        (taken s.hw hdr base (firstMcast (splitList env hdr i skb)))
        (resends base (taken s.hw hdr base (firstMcast (splitList env hdr i skb))))
        (env.copyExpand i j) := by
  unfold rxDataSkb
  generalize splitList env hdr i skb = list
  dsimp only
  split_ifs with hempty
  · rw [Bool.and_eq_true, List.isEmpty_iff] at hempty
    simp [hempty.1]
  · rw [Option.getD_some, resendForward_eq]
    constructor
    · intro h j m hm
      obtain ⟨hj, rfl⟩ := List.getElem?_eq_some_iff.mp hm
      exact (good_iff _ _ _ _ _).mp (h _ (List.mem_mapIdx.mpr ⟨j, hj, rfl⟩))
    · intro h x hx
      obtain ⟨j, hj, rfl⟩ := List.mem_mapIdx.mp hx
      exact (good_iff _ _ _ _ _).mpr (h j _ (List.getElem?_eq_getElem hj))

theorem rxDataSkb_queued {i : ℕ} {base : Vif} {skb : SkBuff} :
    ∀ h ∈ (rxDataSkb s.hw env hdr i base skb).getD [], h.queued = false := by
  unfold rxDataSkb
  dsimp only
  split_ifs
  · simp
  · intro h hh
    obtain ⟨j, hj, rfl⟩ := List.mem_mapIdx.mp hh
    rfl

theorem handOn_forall {base : Vif} {P : Handled → Prop} (k : ℕ) (gs : List SkBuff) :
    (∀ h ∈ handOn s.hw env hdr base k gs, P h) ↔ ∀ i g, gs[i]? = some g →
      ∀ h ∈ (rxDataSkb s.hw env hdr (k+i) base (subSkb g)).getD [], P h := by
  induction gs generalizing k with
  | nil => simp [handOn]
  | cons g gs ih =>
    simp only [handOn, List.mem_append, or_imp, forall_and, ih]
    constructor
    · rintro ⟨hfirst, hrest⟩ i
      cases i with
      | zero => simpa using hfirst
      | succ i =>
        have hi : k+(i+1) = k+1+i := by omega
        rw [List.getElem?_cons_succ, hi]
        exact hrest i
    · intro h
      refine ⟨h 0 g rfl, fun i g' hg' => ?_⟩
      have hi : k+1+i = k+(i+1) := by omega
      rw [hi]
      exact h (i+1) g' hg'

end List

/-! ## One MSDU -/

theorem right_hand {out : List (ℕ × Ind)} {m : Msdu} {w v : ℕ}
    (h : handedUp out m.k+v = w) : Right v (m.hand out) ↔ Right w m := by
  have hwireless : (m.hand out).places.count .wireless = m.places.count .wireless := by
    simp [Msdu.hand, List.count_replicate]
  have hstack : (m.hand out).places.count .stack = m.places.count .stack+handedUp out m.k := by
    simp [Msdu.hand]
  have hsum : m.places.count .stack+handedUp out m.k+v = m.places.count .stack+w := by omega
  constructor
  · rintro ⟨hr, hu⟩
    rw [hwireless] at hr
    rw [hstack, hsum] at hu
    exact ⟨hr, hu⟩
  · rintro ⟨hr, hu⟩
    refine ⟨hwireless.trans hr, ?_⟩
    rw [hstack, hsum]
    exact hu

/-- What does not wait and is not to be dropped is where it should be. -/
theorem right_good {m : Msdu} {vif : Vif} {a : Addressee} (hdue : m.due = due vif a)
    (hdup : m.duplicate = false) : Right 0 m ↔ Good vif a m.places := by
  unfold Good
  rw [← hdue]
  constructor
  · rintro ⟨hr, hu⟩
    exact ⟨hr, by simpa [hdup] using hu⟩
  · rintro ⟨hr, hu⟩
    exact ⟨hr, .inl hu⟩

theorem received_forall {s : Machine} {hdr : HwRxhdr} {f : RxFrame} {hs : List Handled}
    {P : Msdu → Prop} : (∀ m ∈ s.received hdr f hs, P m) ↔
      ∀ vif ∈ frameVif s.hw hdr, apLike vif.iftype = true → f.isData = true → ∀ h ∈ hs,
        P ⟨s.next, due vif (addressee s.hw s.macAddr vif h.skb),
          h.queued && waits s.hw.pool vif (readyOf f), h.places⟩ := by
  unfold Machine.received
  cases frameVif s.hw hdr with
  | none => simp
  | some vif =>
    cases hdata : f.isData <;> cases hap : apLike vif.iftype <;> simp [hap]

/-! ## A frame on its own interface -/

section Call
variable {s : Machine} {env : RelayEnv} {hdr : HwRxhdr} {vif : Vif} {r : Ready}

/-- The destination index tells the stations of the interface from the others. -/
theorem addressee_named {skb : SkBuff} (h : Named s hdr skb) (vif : Vif) :
    addressee s.hw s.macAddr vif skb =
      if isMcast skb then .group else if inBss s.hw hdr vif then .member else .outside := by
  unfold addressee
  have hmember : ((List.range (NX_REMOTE_STA_MAX+NX_VIRT_DEV_MAX)).any fun i =>
      (s.hw.staTable i).valid && (s.hw.staTable i).vlanIdx == vif.vifIndex &&
        s.macAddr i == skb.slice 0 6) = inBss s.hw hdr vif := by
    rw [Bool.eq_iff_iff, List.any_eq_true]
    simp only [inBss, List.mem_range, Bool.and_eq_true, beq_iff_eq, bne_iff_ne]
    constructor
    · rintro ⟨i, hi, ⟨hvalid, hvlan⟩, hmac⟩
      obtain rfl := (h.names i hi hvalid).mp hmac
      refine ⟨⟨?_, hvalid⟩, hvlan⟩
      intro hno
      rw [hno] at hi
      exact absurd hi (by decide)
    · rintro ⟨⟨hne, hvalid⟩, hvlan⟩
      have hi := h.known.resolve_left hne
      exact ⟨hdr.flagsDstIdx, hi, ⟨hvalid, hvlan⟩, (h.names _ hi hvalid).mpr rfl⟩
  rw [hmember]

/-- What is queued goes up or waits, but for what is dropped. -/
theorem queued_right {a : Addressee} {dup up copied forward resend : Bool} {out : List (ℕ × Ind)}
    {k v : ℕ} (hresend : resend = (a != .outside)) (hforward : forward = (a != .member))
    (hcount : handedUp out k+v = up.toNat) {lost : Prop} (hup : up = true → forward = true ∧ ¬ lost)
    (hdown : up = false → forward = false ∨ lost ∨ dup = true) :
    Right v (Msdu.hand out ⟨k, due vif a, forward && dup,
      if resend && copied then [.wireless] else []⟩) ↔
    Agrees vif a a (a != .outside) copied ∧ (a ≠ .member → lost → dup = true) := by
  rw [right_hand hcount]
  have hboth : Right up.toNat ⟨k, due vif a, forward && dup,
      if resend && copied then [.wireless] else []⟩ ↔
      ((resend && copied) = (due vif a).resend ∧
        (up = (due vif a).handUp ∨ (forward && dup) = true ∧ up = false)) := by
    constructor
    · rintro ⟨hr, hu⟩
      constructor
      · revert hr
        cases resend && copied <;> cases (due vif a).resend <;> simp
      · revert hu
        cases resend && copied <;> cases up <;> cases (due vif a).handUp <;> simp
    · rintro ⟨hr, hu⟩
      constructor
      · dsimp only
        rw [← hr]
        cases resend && copied <;> rfl
      · revert hu
        cases resend && copied <;> cases up <;> cases (due vif a).handUp <;> simp
  rw [hboth]
  subst hresend hforward
  unfold Agrees due
  cases vif.apIsolate <;> cases a <;> cases copied <;> cases up <;> cases dup <;>
    simp_all

/-- The record of what was handled. -/
def record (s : Machine) (vif : Vif) (r : Ready) (h : Handled) : Msdu :=
  ⟨s.next, due vif (addressee s.hw s.macAddr vif h.skb), h.queued && waits s.hw.pool vif r,
    h.places⟩

def AllRight (s : Machine) (vif : Vif) (r : Ready) (res : Result) : Prop :=
  ∀ h ∈ res.2.1, Right (waiting res.1.pool s.next) ((record s vif r h).hand res.2.2)

/-- Nothing of the frame is queued. -/
theorem allRight_good {res : Result} {hs : List Handled} (hres : res.2.1 = hs)
    (hcount : handedUp res.2.2 s.next+waiting res.1.pool s.next = 0)
    (hqueued : ∀ h ∈ hs, h.queued = false) :
    AllRight s vif r res ↔
      ∀ h ∈ hs, Good vif (addressee s.hw s.macAddr vif h.skb) h.places := by
  unfold AllRight
  rw [hres]
  apply forall₂_congr
  intro h hh
  rw [right_hand hcount]
  exact right_good rfl (by simp [record, hqueued h hh])

theorem allRight_direct {hw : Hw} {hs : List Handled} (hpool : hw.pool = s.hw.pool)
    (hfresh : waiting s.hw.pool s.next = 0) (hqueued : ∀ h ∈ hs, h.queued = false) :
    AllRight s vif r (hw, hs, []) ↔
      ∀ h ∈ hs, Good vif (addressee s.hw s.macAddr vif h.skb) h.places := by
  have hcount : handedUp [] s.next+waiting hw.pool s.next = 0 := by
    rw [hpool]
    exact (Nat.zero_add _).trans hfresh
  exact allRight_good rfl hcount hqueued

theorem flushThen_spec {hw : Hw} {k : ℕ} {hs : List Handled} {res : Result}
    (h : flushThen hw k vif r (some hs) = some res) : res.2.1 = hs ∧
      ∀ j, handedUp res.2.2 j+waiting res.1.pool j = waiting hw.pool j := by
  unfold flushThen at h
  split_ifs at h
  · obtain ⟨x, hx, hres⟩ := Option.bind_eq_some_iff.mp h
    obtain rfl := Option.some.inj hres
    exact ⟨rfl, flushTid_counts (p := poolFor hw vif) rfl hx⟩
  · obtain rfl := Option.some.inj h
    exact ⟨rfl, fun j => Nat.zero_add _⟩

theorem ap_right (hap : vif.iftype = .ap ∨ vif.iftype = .p2pGo)
    (hfresh : waiting s.hw.pool s.next = 0) (hnamed : Named s hdr r.skb) {res : Result}
    (h : apBranch s.hw env hdr s.next vif r = some res) :
    AllRight s vif r res ↔ PlainAgrees s env hdr vif r := by
  have hmac : (reordMac vif.iftype.reord r.skb).isSome = true := by
    apply reord_isSome
    rcases hap with hap | hap <;> simp [hap, NlIftype.reord]
  have hwho := addressee_named hnamed vif
  have hresend : (isMcast r.skb || inBss s.hw hdr vif) =
      (addressee s.hw s.macAddr vif r.skb != .outside) := by
    rw [hwho]
    cases isMcast r.skb <;> cases inBss s.hw hdr vif <;> rfl
  have hforward : (isMcast r.skb || !inBss s.hw hdr vif) =
      (addressee s.hw s.macAddr vif r.skb != .member) := by
    rw [hwho]
    cases isMcast r.skb <;> cases inBss s.hw hdr vif <;> rfl
  unfold PlainAgrees
  simp only [hap, true_and]
  unfold apBranch at h
  by_cases hqos : (r.isQos && hdr.flagsNeedReord) = true
  · rw [if_pos hqos] at h
    rw [Bool.and_eq_true] at hqos
    obtain ⟨x, hx, rfl⟩ := Option.map_eq_some_iff.mp h
    obtain ⟨up, hcounts, hup, hdown⟩ := processUnit_counts rfl hmac hx
    have hcount := hcounts s.next
    have hpool : waiting (poolFor s.hw vif) s.next = waiting s.hw.pool s.next := rfl
    rw [hpool, hfresh, Nat.zero_add] at hcount
    simp only [AllRight, List.mem_singleton, forall_eq, hqos, forall_const]
    have hone : handedUp x.2 s.next+waiting x.1 s.next = up.toNat := by
      rw [hcount]
      cases up <;> simp
    exact queued_right hresend hforward hone (fun hu => ⟨(hup hu).1, by simp [(hup hu).2]⟩) hdown
  · rw [if_neg hqos] at h
    have hskip : ¬ (r.isQos = true ∧ hdr.flagsNeedReord = true) := by
      rwa [Bool.and_eq_true] at hqos
    have hrest : (addressee s.hw s.macAddr vif r.skb ≠ .member → r.isQos = true →
        hdr.flagsNeedReord = true → dropped env.kmalloc (poolFor s.hw vif) vif.iftype.reord r =
          true → waits s.hw.pool vif r = true) ↔ True :=
      iff_true_intro fun _ hq hn => absurd ⟨hq, hn⟩ hskip
    rw [hrest, and_true]
    obtain ⟨hlist, hcounts⟩ := flushThen_spec h
    rw [allRight_good hlist ((hcounts s.next).trans hfresh) (by simp), List.forall_mem_singleton, RelayEnv.resent,
      hresend, hforward]
    have hsame : (addressee s.hw s.macAddr vif r.skb != .member) =
        !((addressee s.hw s.macAddr vif r.skb != .outside) &&
          addressee s.hw s.macAddr vif r.skb == .member) := by
      cases addressee s.hw s.macAddr vif r.skb <;> rfl
    rw [hsame]
    exact good_iff _ _ _ _ _

theorem whole_right {f : RxFrame} (hap : ∀ vif ∈ frameVif s.hw hdr, apLike vif.iftype = true)
    (hfresh : waiting s.hw.pool s.next = 0) (hnamed : Named s hdr (readyOf f).skb)
    (hdata : f.isData = true) {res : Result}
    (h : wholeCall s.hw env hdr s.next f = some res) :
    (∀ vif ∈ frameVif s.hw hdr, AllRight s vif (readyOf f) res) ↔ WholeAgrees s env hdr f := by
  unfold wholeCall RxRelay.deliver at h
  unfold WholeAgrees
  cases hmgmt : f.flagsIs80211Mpdu with
  | true =>
    rw [hmgmt, if_pos rfl] at h
    obtain rfl := Option.some.inj h
    simp [AllRight]
  | false =>
    rw [hmgmt, if_neg Bool.false_ne_true] at h
    cases hvif : frameVif s.hw hdr with
    | none => simp
    | some vif =>
      rw [hvif] at h
      have hlike := hap vif hvif
      simp only [Option.mem_def, Option.some.injEq, forall_eq', hdata, hlike, forall_const,
        Bool.false_eq_true, false_or]
      unfold branch at h
      cases htype : vif.iftype with
      | ap =>
        simp only [htype] at h
        exact ap_right (.inl htype) hfresh hnamed h
      | p2pGo =>
        simp only [htype] at h
        exact ap_right (.inr htype) hfresh hnamed h
      | apVlan | meshPoint =>
        simp only [htype, Option.some.injEq] at h
        have hlist : res.2.1 = [⟨(readyOf f).skb, [], false⟩] := by rw [← h]
        have hcount : handedUp res.2.2 s.next+waiting res.1.pool s.next = 0 := by
          rw [← h]
          exact (Nat.zero_add _).trans hfresh
        have hno : ¬ PlainAgrees s env hdr vif (readyOf f) := by
          intro hagrees
          rcases hagrees.1 with ht | ht <;> simp [htype] at ht
        have hbad : ∀ a, ¬ Good vif a [] := by
          intro a
          unfold Good due
          cases vif.apIsolate <;> cases a <;> decide
        rw [allRight_good hlist hcount (by simp)]
        simp [hno, hbad]
      | station | p2pClient | monitor | other => simp [htype, apLike] at hlike

/-! ## A call -/

section Frame
variable {f : RxFrame} {res : Result}

theorem amsdu_right {base : Vif} (hbase : getVif s.hw hdr.flagsVifIdx = some base)
    (hvif : frameVif s.hw hdr = some vif) (hap : apLike vif.iftype = true)
    (hfresh : waiting s.hw.pool s.next = 0) (hamsdu : (f.isData && f.isAmsdu) = true)
    (h : rwnxRxdataindAicwf s.hw env hdr s.next f = some res) :
    AllRight s vif (readyOf f) res ↔ Follows s env hdr f := by
  have hfits := call_isSome.mp (Option.isSome_iff_exists.mpr ⟨res, h⟩)
  rw [Returns, hamsdu, if_pos rfl] at hfits
  have hloop : amsduLoop s.hw env hdr (skbPull (f.pullLen-8) f.skb) = (some true, _) :=
    amsdu_loop hbase le_rfl hfits
  rw [rwnxRxdataindAicwf, hamsdu, if_pos rfl, hloop] at h
  obtain rfl := Option.some.inj h
  rw [allRight_direct rfl hfresh ((handOn_forall 0 _).mpr fun _ _ _ => rxDataSkb_queued),
    handOn_forall]
  unfold Follows ListAgrees
  simp only [hamsdu, if_true, hbase, hvif, Option.mem_def, Option.some.injEq, forall_eq', hap,
    forall_const, Nat.zero_add, list_good, amsduSkb]

theorem fragment_right {base : Vif} (hbase : getVif s.hw hdr.flagsVifIdx = some base)
    (hvif : frameVif s.hw hdr = some vif) (hap : apLike vif.iftype = true)
    (hfresh : waiting s.hw.pool s.next = 0) (hdata : f.isData = true)
    (hnamed : Named s hdr (readyOf f).skb)
    (h : fragmentCall s.hw env hdr s.next f = some res) :
    AllRight s vif (readyOf f) res ↔ FragmentAgrees s env hdr f := by
  have hnothing : ∀ {hw : Hw} {P : Prop}, some (hw, [], []) = some res → P →
      (AllRight s vif (readyOf f) res ↔ P) := by
    intro hw P hres hp
    obtain rfl := Option.some.inj hres
    simp [AllRight, hp]
  unfold fragmentCall at h
  unfold FragmentAgrees
  cases hfind : findDefrag f s.hw.defragList with
  | none =>
    simp only [hfind] at h
    dsimp only
    cases hmore : f.moreFrag with
    | true =>
      simp only [hmore, if_true] at h
      split_ifs at h
      · obtain ⟨d, -, hres⟩ := Option.map_eq_some_iff.mp h
        exact hnothing (congrArg some hres) (by simp)
      · exact hnothing h (by simp)
    | false =>
      simp only [hmore, Bool.false_eq_true, if_false] at h
      have hall := whole_right (by simp [hvif, hap]) hfresh hnamed hdata h
      simpa [hvif] using hall
  | some c =>
    simp only [hfind] at h
    dsimp only
    by_cases hnum : c.nextFn = f.fragNum
    · rw [if_neg (not_not.mpr hnum)] at h
      obtain ⟨d, hd, hnext⟩ := Option.bind_eq_some_iff.mp h
      unfold nextCall at hnext
      cases hmore : f.moreFrag with
      | true =>
        rw [hmore, if_pos rfl] at hnext
        exact hnothing hnext (by simp)
      | false =>
        rw [hmore, if_neg Bool.false_ne_true, hbase] at hnext
        obtain ⟨hs, hhs, rfl⟩ := Option.map_eq_some_iff.mp hnext
        have hget : hs = (rxDataSkb s.hw env hdr 0 base (SkBuff.ofList d.skb)).getD [] := by
          rw [hhs, Option.getD_some]
        refine (allRight_direct rfl hfresh (hget ▸ rxDataSkb_queued)).trans ?_
        rw [hget, list_good]
        unfold ListAgrees
        simp only [hnum, hd, hbase, hvif, Option.mem_def, Option.some.injEq, forall_eq', hap,
          forall_const]
    · rw [if_pos hnum] at h
      exact hnothing h fun hsame => absurd hsame hnum

/-- Where a call returns, its MSDUs are where they should be exactly if it follows the policy. -/
theorem call_right (hfresh : waiting s.hw.pool s.next = 0)
    (hnamed : f.isData = true → Named s hdr (firstSkb f))
    (h : rwnxRxdataindAicwf s.hw env hdr s.next f = some res) :
    (∀ m ∈ s.received hdr f res.2.1, Right (waiting res.1.pool m.k) (m.hand res.2.2)) ↔
      Follows s env hdr f := by
  rw [received_forall]
  have hnobody : ¬ (∃ vif ∈ frameVif s.hw hdr, apLike vif.iftype = true ∧ f.isData = true) →
      Follows s env hdr f := by
    intro hno
    have hlist : ∀ i base list, ListAgrees s env hdr i base list ∨ f.isData = false := by
      intro i base list
      cases hdata : f.isData with
      | false => exact .inr rfl
      | true => exact .inl fun vif hvif hap => absurd ⟨vif, hvif, hap, hdata⟩ hno
    have hwhole : WholeAgrees s env hdr f :=
      .inr fun vif hvif hap hdata => absurd ⟨vif, hvif, hap, hdata⟩ hno
    unfold Follows FragmentAgrees
    split_ifs with hamsdu hfrag
    · rw [Bool.and_eq_true] at hamsdu
      exact fun base _ i g _ => (hlist i base _).resolve_right (by simp [hamsdu])
    · rw [Bool.and_eq_true] at hfrag
      cases findDefrag f s.hw.defragList with
      | none => exact fun _ => hwhole
      | some c => exact fun _ _ base _ d _ => (hlist 0 base _).resolve_right (by simp [hfrag])
    · exact hwhole
  by_cases hsome : ∃ vif ∈ frameVif s.hw hdr, apLike vif.iftype = true ∧ f.isData = true
  · obtain ⟨vif, hvif, hap, hdata⟩ := hsome
    rw [Option.mem_def] at hvif
    obtain ⟨base, hbase, -⟩ := Option.bind_eq_some_iff.mp hvif
    have hgoal : (∀ v ∈ frameVif s.hw hdr, apLike v.iftype = true → f.isData = true →
        AllRight s v (readyOf f) res) ↔ AllRight s vif (readyOf f) res := by
      simp [hvif, hap, hdata]
    apply hgoal.trans
    cases hamsdu : f.isData && f.isAmsdu with
    | true => exact amsdu_right hbase hvif hap hfresh hamsdu h
    | false =>
      have hplain : Named s hdr (readyOf f).skb := by
        have hfirst := hnamed hdata
        rw [hdata, Bool.true_and] at hamsdu
        rw [firstSkb, hamsdu, if_neg Bool.false_ne_true] at hfirst
        rwa [readyOf, if_pos hdata]
      unfold Follows
      rw [hamsdu, if_neg Bool.false_ne_true]
      cases hfrag : f.isData && isFragment f with
      | true =>
        rw [call_fragment hamsdu hfrag] at h
        exact fragment_right hbase hvif hap hfresh hdata hplain h
      | false =>
        rw [call_whole hamsdu hfrag] at h
        have hall := whole_right (by simp [hvif, hap]) hfresh hplain hdata h
        simpa [hvif] using hall
  · refine iff_of_true (fun vif hvif hap hdata => ?_) (hnobody hsome)
    exact absurd ⟨vif, hvif, hap, hdata⟩ hsome

end Frame

end Call

/-! ## A step -/

/-- Buffers to come are not known yet. -/
structure Numbered (s : Machine) : Prop where
  msdus : ∀ m ∈ s.msdus, m.k < s.next
  queued : ∀ e ∈ listed s.hw.pool.stasReordList, e.skb < s.next

theorem Numbered.fresh {s : Machine} (h : Numbered s) : waiting s.hw.pool s.next = 0 := by
  rw [waiting_eq, List.countP_eq_zero]
  intro e he
  have hlt := h.queued e he
  simp only [awaited, Bool.and_eq_true, beq_iff_eq, not_and]
  omega

section Step
variable {s t : Machine}

theorem call_settled {env : RelayEnv} {hdr : HwRxhdr} {skb : SkBuff} (hn : Numbered s)
    (hs : Settled s) (hnamed : Promised s (.rxdataind env hdr skb))
    (ht : step s (.rxdataind env hdr skb) = some t) :
    Settled t ↔ Apt s (.rxdataind env hdr skb) := by
  simp only [step] at ht
  cases hcall : rwnxRxdataindAicwf s.hw env hdr s.next (frameOf hdr skb) with
  | none =>
    rw [hcall] at ht
    obtain rfl := Option.some.inj ht
    constructor
    · intro h
      cases h.returned
    · rintro ⟨h, -⟩
      have hsome := call_isSome (k := s.next).mpr h
      rw [hcall] at hsome
      cases hsome
  | some res =>
    have hreturns := call_isSome.mp (Option.isSome_iff_exists.mpr ⟨res, hcall⟩)
    have hmoves := call_moves hcall
    have hright := call_right hn.fresh hnamed hcall
    rw [hcall] at ht
    obtain rfl := Option.some.inj ht
    simp only [Apt, hreturns, true_and]
    rw [← hright]
    have hold : ∀ m ∈ s.msdus, Right (waiting res.1.pool m.k) (m.hand res.2.2) := by
      intro m hm
      have hk : m.k ≠ s.next := by
        have hlt := hn.msdus m hm
        omega
      exact (right_hand (hmoves.counts m.k hk)).mpr (hs.right m hm)
    constructor
    · intro h m hm
      exact h.right _ (List.mem_map_of_mem (List.mem_append_right _ hm))
    · intro h
      refine ⟨hs.returned, ?_⟩
      intro m hm
      obtain ⟨m', hm', rfl⟩ := List.mem_map.mp hm
      rcases List.mem_append.mp hm' with hm' | hm'
      · exact hold m' hm'
      · exact h m' hm'

theorem timeoutWorker_settled {mac : List UInt8} {tid : ℕ} (hs : Settled s)
    (ht : step s (.timeoutWorker mac tid) = some t) : Settled t := by
  obtain rfl := Option.some.inj ht
  refine ⟨hs.returned, ?_⟩
  intro m hm
  obtain ⟨m', hm', rfl⟩ := List.mem_map.mp hm
  exact (right_hand (timeoutWorker_counts s.hw.pool mac tid m'.k)).mpr (hs.right m' hm')

/-- A station that goes takes what waits for it along. -/
theorem deinitSta_settled {mac : List UInt8} (hs : Settled s)
    (ht : step s (.deinitSta mac) = some t) : Settled t ↔ Apt s (.deinitSta mac) := by
  obtain rfl := Option.some.inj ht
  have hcounts := deinitSta_counts s.hw.pool mac
  have hsame : ∀ m : Msdu, Right (waiting (s.hw.pool.deinitSta mac).1 m.k)
      (m.hand (s.hw.pool.deinitSta mac).2) ↔ Right (waiting (s.hw.pool.deinitSta mac).1 m.k) m := by
    intro m
    exact right_hand (by rw [(hcounts m.k).1, Nat.zero_add])
  have hone : ∀ m ∈ s.msdus, m.places.count .stack+waiting s.hw.pool m.k ≤ 1 := by
    intro m hm
    rcases (hs.right m hm).up with h | ⟨-, h⟩
    · rw [h]
      exact Bool.toNat_le _
    · omega
  constructor
  · intro h info hinfo e he hforward m hm hk
    have hremoved := (hcounts m.k).2
    rw [Option.mem_def.mp hinfo, Option.map_some, Option.getD_some] at hremoved
    have hpos : 0 < info.elements.countP (awaited m.k) :=
      List.countP_pos_iff.mpr ⟨e, he, by simp [awaited, hk, hforward]⟩
    have hafter := ((hsame m).mp (h.right _ (List.mem_map_of_mem hm))).up
    have hle := hone m hm
    rcases (hs.right m hm).up with hbefore | ⟨hdup, -⟩
    · rcases hafter with hafter | ⟨hdup, -⟩
      · omega
      · exact hdup
    · exact hdup
  · intro h
    refine ⟨hs.returned, ?_⟩
    intro m' hm'
    obtain ⟨m, hm, rfl⟩ := List.mem_map.mp hm'
    apply (hsame m).mpr
    have hright := hs.right m hm
    have hremoved := (hcounts m.k).2
    rcases Nat.eq_zero_or_pos ((((findInfo mac s.hw.pool.stasReordList).map
      PoolInfo.elements).getD []).countP (awaited m.k)) with hzero | hpos
    · have hstay : waiting (s.hw.pool.deinitSta mac).1 m.k = waiting s.hw.pool m.k := by omega
      rwa [hstay]
    · refine ⟨hright.resent, .inr ⟨?_, ?_⟩⟩
      · obtain ⟨e, he, hawaited⟩ := List.countP_pos_iff.mp hpos
        simp only [awaited, Bool.and_eq_true, beq_iff_eq] at hawaited
        cases hinfo : findInfo mac s.hw.pool.stasReordList with
        | none => simp [hinfo] at he
        | some info =>
          rw [hinfo, Option.map_some, Option.getD_some] at he
          exact h info hinfo e he hawaited.2 m hm hawaited.1.symm
      · have hle := hone m hm
        omega

theorem surroundings_settled {hw : Hw} {macAddr : ℕ → List UInt8} (hs : Settled s)
    (ht : step s (.surroundings hw macAddr) = some t) : Settled t := by
  obtain rfl := Option.some.inj ht
  exact ⟨hs.returned, hs.right⟩

theorem step_settled {a : Act} (hn : Numbered s) (hs : Settled s) (ha : Promised s a)
    (ht : step s a = some t) : Settled t ↔ Apt s a := by
  cases a with
  | rxdataind env hdr skb => exact call_settled hn hs ha ht
  | timeoutWorker mac tid => exact iff_of_true (timeoutWorker_settled hs ht) trivial
  | deinitSta mac => exact deinitSta_settled hs ht
  | surroundings hw macAddr => exact iff_of_true (surroundings_settled hs ht) trivial

/-! ## Numbers -/

theorem step_numbered {a : Act} (h : Numbered s) (ht : step s a = some t) : Numbered t := by
  have hhand : ∀ {l : List Msdu} {out : List (ℕ × Ind)} {n : ℕ}, (∀ m ∈ l, m.k < n) →
      ∀ m ∈ l.map (Msdu.hand out), m.k < n := by
    intro l out n hl m hm
    obtain ⟨m', hm', rfl⟩ := List.mem_map.mp hm
    exact hl m' hm'
  cases a with
  | rxdataind env hdr skb =>
    simp only [step] at ht
    cases hcall : rwnxRxdataindAicwf s.hw env hdr s.next (frameOf hdr skb) with
    | none =>
      rw [hcall] at ht
      obtain rfl := Option.some.inj ht
      exact ⟨h.msdus, h.queued⟩
    | some res =>
      rw [hcall] at ht
      obtain rfl := Option.some.inj ht
      constructor
      · apply hhand
        intro m hm
        rcases List.mem_append.mp hm with hm | hm
        · exact Nat.lt_succ_of_lt (h.msdus m hm)
        · have hall : ∀ m ∈ s.received hdr (frameOf hdr skb) res.2.1, m.k = s.next :=
            received_forall.mpr fun _ _ _ _ _ _ => rfl
          show m.k < s.next+1
          rw [hall m hm]
          exact Nat.lt_succ_self _
      · intro e he
        rcases (call_moves hcall).skbs e he with hk | hin
        · show e.skb < s.next+1
          rw [hk]
          exact Nat.lt_succ_self _
        · obtain ⟨e', he', hskb⟩ := List.mem_map.mp hin
          rw [← hskb]
          exact Nat.lt_succ_of_lt (h.queued e' he')
  | timeoutWorker mac tid =>
    obtain rfl := Option.some.inj ht
    exact ⟨hhand h.msdus, fun e he => h.queued e (timeoutWorker_listed _ mac tid e he)⟩
  | deinitSta mac =>
    obtain rfl := Option.some.inj ht
    exact ⟨hhand h.msdus, fun e he => h.queued e (deinitSta_listed _ mac e he)⟩
  | surroundings hw macAddr =>
    obtain rfl := Option.some.inj ht
    exact ⟨h.msdus, h.queued⟩

end Step

/-! ## Runs -/

/-- One interface, and a valid station at each index. -/
def relayHw (t : NlIftype) (apIsolate : Bool) : Hw :=
  { sampleHw t with vifTable := fun i => if i = 0 then some ⟨0, t, true, apIsolate⟩ else none }

def relayMac (i : ℕ) : List UInt8 := List.replicate 6 (UInt8.ofNat (2*i))

def relayEnv : RelayEnv where
  subAlloc _ := true
  copyExpand _ _ := true
  amsduTo8023s _ := []
  defragAlloc := true
  defragRoom := 2000
  kmalloc := true

/-- Two MSDUs, for station 1 and for an address that is no station's. -/
def mixedAmsdu : List UInt8 :=
  0x88::0x01::List.replicate 22 2++[0x80, 0]++
    relayMac 1++relayMac 3++[0, 10, 0xAA, 0xAA, 3, 0, 0, 0, 8, 0, 20, 20]++
    relayMac 100++relayMac 3++[0, 10, 0xAA, 0xAA, 3, 0, 0, 0, 8, 0, 21, 21]

def toStation (frame : List UInt8) : Act :=
  .rxdataind relayEnv (sampleHdr true 1) (SkBuff.ofList frame)

theorem toStation_promised (t : NlIftype) (apIsolate : Bool) (frame : List UInt8)
    (h : (firstSkb (frameOf (sampleHdr true 1) (SkBuff.ofList frame))).slice 0 6 = relayMac 1) :
    Meets step Promised (init (relayHw t apIsolate) relayMac) [toStation frame] := by
  have hall : ∀ i < NX_REMOTE_STA_MAX+NX_VIRT_DEV_MAX, (relayMac i = relayMac 1 ↔ 1 = i) := by
    decide +kernel
  refine ⟨fun _ => ⟨.inr (by decide), ?_⟩, fun _ _ => trivial⟩
  intro i hi _
  rw [h]
  exact hall i hi

end AIC.RxRelayPolicy
