import Aic8800.DefragIntegrity
import Aic8800.DefragTimer

/-!
# The life of a context

A context on the list is unharmed and has an end to come: its timer, a callback
on its way or the thread about to arm it. One off the list was freed once. The
only step that can free it again is a callback that waited for the lock while
the last fragment took the context; the only late accesses are of such a
callback, and the one at the end of every callback.
-/

set_option autoImplicit false

namespace AIC.DefragLifetime
open AIC.DefragMachine hiding step init moreFragment lastFragment
open AIC.DefragTimer Lib.GuardedRun

structure Accounted (s : Machine) : Prop where
  nodup : (ids s).Nodup
  unborn : ∀ i, s.next ≤ i → s.ctx i = .fresh
  setup : ∀ i, s.rx = .setup i → i ∈ ids s ∧ (s.ctx i).timer = false ∧ (s.ctx i).cb = .none
  armed : ∀ i, (s.ctx i).timer = true → i ∈ ids s ∧ (s.ctx i).cb = .none
  live : ∀ i ∈ ids s, i < s.next ∧ (s.ctx i).ctrlFrees = 0 ∧ (s.ctx i).skbEnds = 0 ∧
    ((s.ctx i).timer = true ∨ (s.ctx i).cb = .started ∨ (s.ctx i).cb = .waiting ∨ s.rx = .setup i)
  gone : ∀ i, i < s.next → i ∉ ids s → (s.ctx i).ctrlFrees = 1 ∧
    (s.ctx i).skbEnds = if s.rx = .deliver i then 0 else 1
  delivering : ∀ i, s.rx = .deliver i → i < s.next ∧ i ∉ ids s

/-- Freed once with its buffer ended or about to be, or whole with its end to come. -/
def FreedOnce (s : Machine) (i : ℕ) : Prop :=
  (s.ctx i).ctrlFrees = 1 ∧
      ((s.ctx i).skbEnds = 1 ∨ (s.ctx i).skbEnds = 0 ∧ s.rx = .deliver i) ∨
    (s.ctx i).ctrlFrees = 0 ∧ (s.ctx i).skbEnds = 0 ∧
      ((s.ctx i).timer = true ∨ (s.ctx i).cb ≠ .none ∨ s.rx = .setup i)

def Lifetime (s : Machine) : Prop :=
  ∀ i < s.next, FreedOnce s i ∧ (s.ctx i).late = false

instance decidableFreedOnce (s : Machine) (i : ℕ) : Decidable (FreedOnce s i) :=
  inferInstanceAs (Decidable (_ ∨ _))

/-- No callback gets the lock for a context that is freed already. -/
def Unraced (s : Machine) : Act → Prop
  | .cb i => (s.ctx i).cb = .waiting → s.locked = false → (s.ctx i).ctrlFrees = 0
  | _ => True

/-- No callback reads its context, or gets the lock for it, after the free, and
none comes to its unlock: there its own `kfree` has been. -/
def Undisturbed (s : Machine) : Act → Prop
  | .cb i =>
    match (s.ctx i).cb with
    | .none => True
    | .started => (s.ctx i).ctrlFrees = 0
    | .waiting => s.locked = false → (s.ctx i).ctrlFrees = 0
    | .unlock => False
  | _ => True

theorem init_accounted : Accounted init where
  nodup := List.nodup_nil
  unborn _ _ := rfl
  setup := by simp [init]
  armed := by simp [init, Context.fresh]
  live := by simp [init, ids]
  gone := by simp [init]
  delivering := by simp [init]

section
variable {s t : Machine}

theorem Accounted.freedOnce (h : Accounted s) {i : ℕ} (hi : i < s.next) : FreedOnce s i := by
  by_cases hl : i ∈ ids s
  · obtain ⟨-, hc, hk, he⟩ := h.live i hl
    refine Or.inr ⟨hc, hk, ?_⟩
    rcases he with he | he | he | he
    · exact Or.inl he
    · exact Or.inr (Or.inl (by simp [he]))
    · exact Or.inr (Or.inl (by simp [he]))
    · exact Or.inr (Or.inr he)
  · obtain ⟨hc, hk⟩ := h.gone i hi hl
    refine Or.inl ⟨hc, ?_⟩
    split_ifs at hk with hd
    · exact Or.inr ⟨hk, hd⟩
    · exact Or.inl hk

/-- Equal but for what was noted of late accesses. -/
structure Same (c d : Context) : Prop where
  timer : d.timer = c.timer
  cb : d.cb = c.cb
  ctrlFrees : d.ctrlFrees = c.ctrlFrees
  skbEnds : d.skbEnds = c.skbEnds

theorem Accounted.congr (h : Accounted s) (hids : ids t = ids s) (hn : t.next = s.next)
    (hr : t.rx = s.rx) (hu : ∀ i, s.next ≤ i → t.ctx i = s.ctx i)
    (hs : ∀ i, Same (s.ctx i) (t.ctx i)) : Accounted t where
  nodup := hids ▸ h.nodup
  unborn i hi := (hu i (hn ▸ hi)).trans (h.unborn i (hn ▸ hi))
  setup i hi := by
    rw [hids, (hs i).timer, (hs i).cb]
    exact h.setup i (hr ▸ hi)
  armed i hi := by
    rw [hids, (hs i).cb]
    exact h.armed i ((hs i).timer ▸ hi)
  live i hi := by
    rw [(hs i).timer, (hs i).cb, (hs i).ctrlFrees, (hs i).skbEnds, hr, hn]
    exact h.live i (hids ▸ hi)
  gone i hi hl := by
    rw [(hs i).ctrlFrees, (hs i).skbEnds, hr]
    exact h.gone i (hn ▸ hi) (hids ▸ hl)
  delivering i hi := by
    rw [hids, hn]
    exact h.delivering i (hr ▸ hi)

theorem Same.refl (c : Context) : Same c c := ⟨rfl, rfl, rfl, rfl⟩

theorem Accounted.walk (h : Accounted s) : Accounted (walk s) := by
  refine h.congr rfl rfl rfl (fun i hi => ?_) fun i => ?_
  · have hl : i ∉ ids s := fun hl => absurd (h.live i hl).1 (by omega)
    simp [DefragTimer.walk, hl]
  · simp only [DefragTimer.walk]
    split_ifs
    · exact ⟨rfl, rfl, rfl, rfl⟩
    · exact Same.refl _

theorem Accounted.touchSkb (h : Accounted s) {i : ℕ} (hl : i ∈ ids s) (d : DefragCtrlInfo) :
    Accounted (modifyCtx (putCtx s i d) i .touchSkb) := by
  have hi := (h.live i hl).1
  refine h.congr (by simp) rfl rfl (fun j hj => ?_) fun j => ?_
  · exact modifyCtx_other _ (by omega) _
  · by_cases hji : j = i
    · subst hji
      simp only [modifyCtx_self]
      exact ⟨rfl, rfl, rfl, rfl⟩
    · rw [modifyCtx_other _ hji]
      exact Same.refl _

/-- A step of timer, callback or arming that leaves the frees of context `i` as they are. -/
theorem Accounted.retime (h : Accounted s) {i : ℕ} (hi : i < s.next) {c : Context}
    {r : RxPhase} {k : Bool} (hc : c.ctrlFrees = (s.ctx i).ctrlFrees)
    (hk : c.skbEnds = (s.ctx i).skbEnds)
    (hr : r = s.rx ∨ s.rx = .setup i ∧ r = .idle) (hset : r ≠ .setup i)
    (ht : c.timer = true → i ∈ ids s ∧ c.cb = .none)
    (he : i ∈ ids s → c.timer = true ∨ c.cb = .started ∨ c.cb = .waiting) :
    Accounted { modifyCtx s i (fun _ => c) with rx := r, locked := k } where
  nodup := h.nodup
  unborn j hj := by
    have hj' : s.next ≤ j := hj
    simp only [modifyCtx, Function.update_of_ne (show j ≠ i by omega)]
    exact h.unborn j hj'
  setup j hj := by
    rcases hr with rfl | ⟨-, rfl⟩
    · have hji : j ≠ i := fun hji => hset (hji ▸ hj)
      simp only [ids, modifyCtx, Function.update_of_ne hji]
      exact h.setup j hj
    · cases hj
  armed j hj := by
    by_cases hji : j = i
    · subst hji
      simp only [modifyCtx, Function.update_self] at hj ⊢
      exact ht hj
    · simp only [modifyCtx, Function.update_of_ne hji] at hj ⊢
      exact h.armed j hj
  live j hj := by
    by_cases hji : j = i
    · subst hji
      obtain ⟨-, h1, h2, -⟩ := h.live j hj
      simp only [modifyCtx, Function.update_self]
      refine ⟨hi, hc.trans h1, hk.trans h2, ?_⟩
      rcases he hj with he | he | he
      · exact Or.inl he
      · exact Or.inr (Or.inl he)
      · exact Or.inr (Or.inr (Or.inl he))
    · obtain ⟨h0, h1, h2, h3⟩ := h.live j hj
      simp only [modifyCtx, Function.update_of_ne hji]
      refine ⟨h0, h1, h2, h3.imp_right (Or.imp_right (Or.imp_right fun hx => ?_))⟩
      rcases hr with rfl | ⟨hs, -⟩
      · exact hx
      · rw [hs] at hx
        exact absurd (RxPhase.setup.inj hx).symm hji
  gone j hj hl := by
    obtain ⟨h1, h2⟩ := h.gone j hj hl
    have hd : (r = .deliver j) = (s.rx = .deliver j) := by
      rcases hr with rfl | ⟨hs, rfl⟩
      · rfl
      · rw [hs]
        simp
    by_cases hji : j = i
    · subst hji
      simp only [modifyCtx, Function.update_self, hd]
      exact ⟨hc.trans h1, hk.trans h2⟩
    · simp only [modifyCtx, Function.update_of_ne hji, hd]
      exact ⟨h1, h2⟩
  delivering j hj := by
    rcases hr with rfl | ⟨-, rfl⟩
    · exact h.delivering j hj
    · cases hj

/-- The last fragment or the callback takes context `i` off the list and frees it. -/
theorem Accounted.release (h : Accounted s) {i : ℕ} (hl : i ∈ ids s) (hx : s.rx ≠ .setup i)
    {c : Context} {r : RxPhase} {k : Bool} (hc : c.ctrlFrees = 1) (ht : c.timer = false)
    (hk : c.skbEnds = if r = .deliver i then 0 else 1)
    (hr : r = s.rx ∨ s.rx = .idle ∧ r = .deliver i) :
    Accounted { modifyCtx (listDel s i) i (fun _ => c) with rx := r, locked := k } where
  nodup := h.nodup.sublist (List.filter_sublist.map Prod.fst)
  unborn j hj := by
    have hi := (h.live i hl).1
    have hji : j ≠ i := by
      have hj' : s.next ≤ j := hj
      omega
    simp only [modifyCtx, listDel, Function.update_of_ne hji]
    exact h.unborn j hj
  setup j hj := by
    rcases hr with rfl | ⟨-, rfl⟩
    · have hji : j ≠ i := fun hji => hx (hji ▸ hj)
      obtain ⟨h1, h2⟩ := h.setup j hj
      simp only [modifyCtx, listDel, Function.update_of_ne hji]
      exact ⟨mem_ids_listDel.mpr ⟨hji, h1⟩, h2⟩
    · cases hj
  armed j hj := by
    by_cases hji : j = i
    · subst hji
      simp only [modifyCtx, Function.update_self, ht] at hj
      cases hj
    · simp only [modifyCtx, listDel, Function.update_of_ne hji] at hj ⊢
      obtain ⟨h1, h2⟩ := h.armed j hj
      exact ⟨mem_ids_listDel.mpr ⟨hji, h1⟩, h2⟩
  live j hj := by
    obtain ⟨hji, hj⟩ := mem_ids_listDel.mp hj
    obtain ⟨h0, h1, h2, h3⟩ := h.live j hj
    simp only [modifyCtx, listDel, Function.update_of_ne hji]
    refine ⟨h0, h1, h2, h3.imp_right (Or.imp_right (Or.imp_right fun hx => ?_))⟩
    rcases hr with rfl | ⟨hs, -⟩
    · exact hx
    · rw [hs] at hx
      cases hx
  gone j hj hl' := by
    by_cases hji : j = i
    · subst hji
      simp only [modifyCtx, Function.update_self]
      exact ⟨hc, hk⟩
    · have hjl : j ∉ ids s := fun hjl => hl' (mem_ids_listDel.mpr ⟨hji, hjl⟩)
      obtain ⟨h1, h2⟩ := h.gone j hj hjl
      simp only [modifyCtx, listDel, Function.update_of_ne hji]
      refine ⟨h1, h2.trans ?_⟩
      rcases hr with rfl | ⟨hs, rfl⟩
      · rfl
      · simp [hs, Ne.symm hji]
  delivering j hj := by
    have hout : ∀ {j}, j ∉ ids s ∨ j = i → j ∉ ids (listDel s i) := by
      intro j hj hm
      obtain ⟨hji, hjl⟩ := mem_ids_listDel.mp hm
      rcases hj with hj | hj
      · exact hj hjl
      · exact hji hj
    rcases hr with rfl | ⟨-, rfl⟩
    · obtain ⟨h1, h2⟩ := h.delivering j hj
      exact ⟨h1, hout (Or.inl h2)⟩
    · obtain rfl := RxPhase.deliver.inj hj
      exact ⟨(h.live i hl).1, hout (Or.inr rfl)⟩

theorem Accounted.publish (h : Accounted s) (hr : s.rx = .idle) (d : DefragCtrlInfo) :
    Accounted { s with
      defragList := s.defragList++[(s.next, d)]
      next := s.next+1
      rx := .setup s.next } := by
  have hids : ids { s with
      defragList := s.defragList++[(s.next, d)]
      next := s.next+1
      rx := .setup s.next } = ids s++[s.next] := by simp [ids]
  have hfresh := h.unborn s.next le_rfl
  constructor
  · rw [hids, List.nodup_append]
    refine ⟨h.nodup, List.nodup_singleton _, fun i hi j hj => ?_⟩
    have := (h.live i hi).1
    rw [List.mem_singleton.mp hj]
    omega
  · intro i hi
    exact h.unborn i (by simp only at hi; omega)
  · intro i hi
    obtain rfl := RxPhase.setup.inj hi
    simp only [hids, hfresh]
    simp [Context.fresh]
  · intro i hi
    obtain ⟨h1, h2⟩ := h.armed i hi
    rw [hids]
    exact ⟨by simp [h1], h2⟩
  · intro i hi
    rw [hids] at hi
    rcases List.mem_append.mp hi with hi | hi
    · obtain ⟨h0, h1, h2, h3⟩ := h.live i hi
      refine ⟨by simp only; omega, h1, h2, ?_⟩
      simp only [hr, reduceCtorEq, or_false] at h3
      exact h3.imp_right (Or.imp_right Or.inl)
    · obtain rfl := List.mem_singleton.mp hi
      simp [hfresh, Context.fresh]
  · intro i hi hl
    rw [hids] at hl
    have hne : i ≠ s.next := by
      rintro rfl
      simp at hl
    obtain ⟨h1, h2⟩ := h.gone i (by simp only at hi; omega) (fun hx => hl (by simp [hx]))
    exact ⟨h1, by simpa [hr] using h2⟩
  · intro i hi
    cases hi

theorem Accounted.passOn (h : Accounted s) {i : ℕ} (hr : s.rx = .deliver i) :
    Accounted { modifyCtx s i (fun c => c.touchSkb.endSkb) with rx := .idle } := by
  obtain ⟨hi, hl⟩ := h.delivering i hr
  have hother : ∀ {j}, j ≠ i → (modifyCtx s i (fun c => c.touchSkb.endSkb)).ctx j = s.ctx j :=
    fun hji => modifyCtx_other s hji _
  have hne : ∀ {j}, j ∈ ids s → j ≠ i := fun hj hji => hl (hji ▸ hj)
  constructor
  · exact h.nodup
  · intro j hj
    exact (hother (by simp only [modifyCtx] at hj; omega)).trans (h.unborn j hj)
  · intro j hj
    cases hj
  · intro j hj
    have harm : (s.ctx j).timer = true := by
      by_cases hji : j = i
      · subst hji
        simpa [Context.touchSkb, Context.endSkb] using hj
      · rwa [show _ = s.ctx j from hother hji] at hj
    obtain ⟨h1, h2⟩ := h.armed j harm
    refine ⟨h1, ?_⟩
    rw [show _ = s.ctx j from hother (hne h1)]
    exact h2
  · intro j hj
    have hj' : j ∈ ids s := hj
    obtain ⟨h0, h1, h2, h3⟩ := h.live j hj'
    rw [show _ = s.ctx j from hother (hne hj')]
    simp only [hr, reduceCtorEq, or_false] at h3
    exact ⟨h0, h1, h2, h3.imp_right (Or.imp_right Or.inl)⟩
  · intro j hj hjl
    obtain ⟨h1, h2⟩ := h.gone j hj hjl
    by_cases hji : j = i
    · subst hji
      simp only [hr, if_true] at h2
      simpa [Context.touchSkb, Context.endSkb, h2] using h1
    · rw [show _ = s.ctx j from hother hji]
      have hd : s.rx ≠ .deliver j := by
        rw [hr]
        exact fun hx => hji (RxPhase.deliver.inj hx).symm
      rw [if_neg hd] at h2
      exact ⟨h1, by simpa using h2⟩
  · intro j hj
    cases hj

/-! ## The steps -/

theorem moreFragment_accounted {tailroom : ℕ} (h : Accounted s) (hr : s.rx = .idle) {f : RxFrame}
    {alloc : Bool} (hs : moreFragment tailroom s f alloc = some t) : Accounted t := by
  unfold moreFragment at hs
  split at hs
  · rename_i i c hfind
    split_ifs at hs with hfn
    · exact Option.some.inj hs ▸ h
    · obtain ⟨d, -, rfl⟩ := Option.map_eq_some_iff.mp hs
      exact h.touchSkb (findCtx_mem hfind) _
  · split_ifs at hs with ha
    · exact Option.some.inj hs ▸ h
    · obtain ⟨d, -, rfl⟩ := Option.map_eq_some_iff.mp hs
      exact h.publish hr d

theorem lastFragment_accounted {tailroom : ℕ} (h : Accounted s) (hr : s.rx = .idle) {f : RxFrame}
    {vif : Bool} (hs : lastFragment tailroom s f vif = some t) : Accounted t := by
  unfold lastFragment at hs
  split at hs
  · rename_i i c hfind
    have hl := findCtx_mem hfind
    split_ifs at hs with hfn hv
    · exact Option.some.inj hs ▸ h
    · obtain ⟨d, -, rfl⟩ := Option.map_eq_some_iff.mp hs
      have hlt : i ∈ ids (modifyCtx (putCtx s i d) i .touchSkb) := by simpa using hl
      obtain ⟨-, hfrees, hends, -⟩ := h.live i hl
      refine (h.touchSkb hl d).release hlt (by simp [modifyCtx, putCtx, hr]) ?_ rfl ?_
        (Or.inr ⟨hr, rfl⟩)
      · simp [Context.kfree, Context.touchSkb, putCtx, listDel, hfrees, modifyCtx]
      · simp [Context.kfree, Context.touchSkb, putCtx, listDel, hends, modifyCtx]
    · obtain ⟨d, -, rfl⟩ := Option.map_eq_some_iff.mp hs
      exact h.touchSkb hl d
  · exact Option.some.inj hs ▸ h

theorem rxFrame_accounted {tailroom : ℕ} (h : Accounted s) (hr : s.rx = .idle) {f : RxFrame}
    {alloc vif : Bool} (hs : rxFrame tailroom s f alloc vif = some t) : Accounted t := by
  unfold rxFrame at hs
  split_ifs at hs
  · exact Option.some.inj hs ▸ h
  · exact moreFragment_accounted h.walk hr hs
  · exact lastFragment_accounted h.walk hr hs

theorem rxStep_accounted (h : Accounted s) (hs : rxStep s = some t) : Accounted t := by
  unfold rxStep at hs
  split at hs
  · cases hs
  · rename_i i hr
    obtain rfl := Option.some.inj hs
    obtain ⟨hl, -, hcb⟩ := h.setup i hr
    exact h.retime (h.live i hl).1 rfl rfl (Or.inr ⟨hr, rfl⟩) (by simp) (fun _ => ⟨hl, hcb⟩)
      (fun _ => Or.inl rfl)
  · rename_i i hr
    exact Option.some.inj hs ▸ h.passOn hr

theorem Accounted.lt_of_cb (h : Accounted s) {i : ℕ} (hc : (s.ctx i).cb ≠ .none) : i < s.next := by
  by_contra hn
  rw [h.unborn i (not_lt.mp hn)] at hc
  exact hc rfl

theorem Accounted.not_setup (h : Accounted s) {i : ℕ}
    (hc : (s.ctx i).cb ≠ .none ∨ (s.ctx i).timer = true) : s.rx ≠ .setup i := by
  intro hx
  obtain ⟨-, ht, hn⟩ := h.setup i hx
  rcases hc with hc | hc
  · exact hc hn
  · rw [ht] at hc
    cases hc

/-- While a callback runs its timer is off, and before the lock the context may be on the list. -/
theorem Accounted.unarmed (h : Accounted s) {i : ℕ} (hc : (s.ctx i).cb ≠ .none) :
    (s.ctx i).timer = false := by
  cases ht : (s.ctx i).timer with
  | false => rfl
  | true => exact absurd (h.armed i ht).2 hc

theorem Accounted.listed_of_cb (h : Accounted s) {i : ℕ} (hc : (s.ctx i).cb ≠ .none)
    (hfree : (s.ctx i).ctrlFrees = 0) : i ∈ ids s := by
  by_contra hl
  have := (h.gone i (h.lt_of_cb hc) hl).1
  omega

theorem cbStep_accounted (h : Accounted s) {i : ℕ} (hu : Unraced s (.cb i))
    (hs : cbStep s i = some t) : Accounted t := by
  cases hc : (s.ctx i).cb with
  | none => simp [cbStep, hc] at hs
  | started =>
    have hne : (s.ctx i).cb ≠ .none := by simp [hc]
    have hoff := h.unarmed hne
    simp only [cbStep, hc, Option.some.injEq] at hs
    subst hs
    exact h.retime (h.lt_of_cb hne) rfl rfl (Or.inl rfl) (h.not_setup (Or.inl hne))
      (by simp [Context.touchCtrl, hoff]) (fun _ => Or.inr (Or.inr rfl))
  | waiting =>
    have hne : (s.ctx i).cb ≠ .none := by simp [hc]
    simp only [cbStep, hc] at hs
    split_ifs at hs with hlock
    obtain rfl := Option.some.inj hs
    have hfree : (s.ctx i).ctrlFrees = 0 := hu hc (by simpa using hlock)
    have hl := h.listed_of_cb hne hfree
    have hends := (h.live i hl).2.2.1
    have hd : s.rx ≠ .deliver i := fun hx => (h.delivering i hx).2 hl
    refine h.release hl (h.not_setup (Or.inl hne)) ?_ ?_ ?_ (Or.inl rfl)
    · simp [Context.kfree, Context.endSkb, Context.touchSkb, Context.touchCtrl, listDel, hfree]
    · simp [Context.kfree, Context.endSkb, Context.touchSkb, Context.touchCtrl, listDel,
        h.unarmed hne]
    · simp [Context.kfree, Context.endSkb, Context.touchSkb, Context.touchCtrl, listDel, hends, hd,
        modifyCtx]
  | unlock =>
    have hne : (s.ctx i).cb ≠ .none := by simp [hc]
    have hoff := h.unarmed hne
    simp only [cbStep, hc, Option.some.injEq] at hs
    subst hs
    refine h.retime (h.lt_of_cb hne) rfl rfl (Or.inl rfl) (h.not_setup (Or.inl hne))
      (by simp [Context.touchCtrl, hoff]) (fun hl => ?_)
    -- a context on the list has no callback at its unlock
    rcases (h.live i hl).2.2.2 with hx | hx | hx | hx
    · simp [hoff] at hx
    · simp [hc] at hx
    · simp [hc] at hx
    · exact absurd hx (h.not_setup (Or.inl hne))

theorem step_accounted {tailroom : ℕ} {a : Act} (h : Accounted s) (hu : Unraced s a)
    (hs : step tailroom s a = some t) : Accounted t := by
  cases a with
  | rx f alloc vif =>
    simp only [step] at hs
    split_ifs at hs with hr
    exact rxFrame_accounted h hr hs
  | rxStep => exact rxStep_accounted h hs
  | expire i =>
    simp only [step] at hs
    split_ifs at hs with ht
    obtain rfl := Option.some.inj hs
    obtain ⟨hl, -⟩ := h.armed i ht
    exact h.retime (h.live i hl).1 rfl rfl (Or.inl rfl) (h.not_setup (Or.inr ht)) (by simp)
      (fun _ => Or.inr (Or.inl rfl))
  | cb i => exact cbStep_accounted h hu hs

/-- A second free shows in the count. -/
theorem freedOnce_unraced {tailroom : ℕ} {a : Act} (h : Accounted s)
    (hn : ∀ t ∈ step tailroom s a, ∀ i < t.next, FreedOnce t i) : Unraced s a := by
  cases a with
  | cb i =>
    intro hc hlock
    have hi := h.lt_of_cb (i := i) (by simp [hc])
    have hbody : step tailroom s (.cb i) = some (timeoutBody s i) := by
      simp [step, cbStep, hc, hlock]
    have ht := hn _ hbody i hi
    simp only [FreedOnce, timeoutBody_self, Context.kfree, Context.endSkb, Context.touchSkb,
      Context.touchCtrl] at ht
    omega
  | rx f alloc vif => trivial
  | rxStep => trivial
  | expire i => trivial

/-! ## Late accesses -/

def Unharmed (s : Machine) : Prop := ∀ i, (s.ctx i).late = false

theorem unharmed_modifyCtx (hu : Unharmed s) {i : ℕ} {g : Context → Context}
    (hg : (g (s.ctx i)).late = false) : Unharmed (modifyCtx s i g) := by
  intro j
  by_cases hji : j = i
  · subst hji
    rw [modifyCtx_self]
    exact hg
  · rw [modifyCtx_other s hji]
    exact hu j

theorem touchCtrl_late {c : Context} (hl : c.late = false) (hf : c.ctrlFrees = 0) :
    c.touchCtrl.late = false := by simp [Context.touchCtrl, hl, hf]

theorem touchSkb_late {c : Context} (hl : c.late = false) (he : c.skbEnds = 0) :
    c.touchSkb.late = false := by simp [Context.touchSkb, hl, he]

theorem walk_unharmed (h : Accounted s) (hu : Unharmed s) : Unharmed (walk s) := by
  intro i
  simp only [walk]
  split_ifs with hl
  · exact touchCtrl_late (hu i) (h.live i hl).2.1
  · exact hu i

theorem moreFragment_unharmed {tailroom : ℕ} (h : Accounted s) (hu : Unharmed s) {f : RxFrame}
    {alloc : Bool} (hs : moreFragment tailroom s f alloc = some t) : Unharmed t := by
  unfold moreFragment at hs
  split at hs
  · rename_i i c hfind
    split_ifs at hs with hfn
    · exact Option.some.inj hs ▸ hu
    · obtain ⟨d, -, rfl⟩ := Option.map_eq_some_iff.mp hs
      exact unharmed_modifyCtx (s := putCtx s i _) hu
        (touchSkb_late (hu i) (h.live i (findCtx_mem hfind)).2.2.1)
  · split_ifs at hs with ha
    · exact Option.some.inj hs ▸ hu
    · obtain ⟨d, -, rfl⟩ := Option.map_eq_some_iff.mp hs
      exact hu

theorem lastFragment_unharmed {tailroom : ℕ} (h : Accounted s) (hu : Unharmed s) {f : RxFrame}
    {vif : Bool} (hs : lastFragment tailroom s f vif = some t) : Unharmed t := by
  unfold lastFragment at hs
  split at hs
  · rename_i i c hfind
    have hput : ∀ d, Unharmed (modifyCtx (putCtx s i d) i .touchSkb) := fun d =>
      unharmed_modifyCtx (s := putCtx s i d) hu
        (touchSkb_late (hu i) (h.live i (findCtx_mem hfind)).2.2.1)
    split_ifs at hs with hfn hv
    · exact Option.some.inj hs ▸ hu
    · obtain ⟨d, -, rfl⟩ := Option.map_eq_some_iff.mp hs
      exact unharmed_modifyCtx (s := listDel (modifyCtx (putCtx s i d) i .touchSkb) i)
        (g := fun c => { c.kfree with timer := false }) (hput d) (hput d i)
    · obtain ⟨d, -, rfl⟩ := Option.map_eq_some_iff.mp hs
      exact hput d
  · exact Option.some.inj hs ▸ hu

theorem rxStep_unharmed (h : Accounted s) (hu : Unharmed s) (hs : rxStep s = some t) :
    Unharmed t := by
  unfold rxStep at hs
  split at hs
  · cases hs
  · rename_i i hr
    obtain rfl := Option.some.inj hs
    exact unharmed_modifyCtx (g := fun c => { c.touchCtrl with timer := true }) hu
      (touchCtrl_late (hu i) (h.live i (h.setup i hr).1).2.1)
  · rename_i i hr
    obtain rfl := Option.some.inj hs
    obtain ⟨hi, hl⟩ := h.delivering i hr
    have hends : (s.ctx i).skbEnds = 0 := by simpa [hr] using (h.gone i hi hl).2
    exact unharmed_modifyCtx (g := fun c => c.touchSkb.endSkb) hu (touchSkb_late (hu i) hends)

theorem cbStep_unharmed (h : Accounted s) (hu : Unharmed s) {i : ℕ}
    (hq : Undisturbed s (.cb i)) (hs : cbStep s i = some t) : Unharmed t := by
  cases hc : (s.ctx i).cb with
  | none => simp [cbStep, hc] at hs
  | started =>
    simp only [Undisturbed, hc] at hq
    simp only [cbStep, hc, Option.some.injEq] at hs
    subst hs
    exact unharmed_modifyCtx hu (touchCtrl_late (hu i) hq)
  | waiting =>
    simp only [Undisturbed, hc] at hq
    simp only [cbStep, hc] at hs
    split_ifs at hs with hlock
    obtain rfl := Option.some.inj hs
    have hfree := hq (by simpa using hlock)
    have hl := h.listed_of_cb (by simp [hc]) hfree
    have hlate := touchSkb_late (touchCtrl_late (hu i) hfree) (h.live i hl).2.2.1
    exact unharmed_modifyCtx (s := listDel s i)
      (g := fun c => { c.touchCtrl.touchSkb.endSkb.kfree with cb := .unlock }) hu hlate
  | unlock => simp [Undisturbed, hc] at hq

theorem step_unharmed {tailroom : ℕ} {a : Act} (h : Accounted s) (hu : Unharmed s)
    (hq : Undisturbed s a) (hs : step tailroom s a = some t) : Unharmed t := by
  cases a with
  | rx f alloc vif =>
    simp only [step, rxFrame] at hs
    split_ifs at hs
    · exact Option.some.inj hs ▸ hu
    · exact moreFragment_unharmed h.walk (walk_unharmed h hu) hs
    · exact lastFragment_unharmed h.walk (walk_unharmed h hu) hs
  | rxStep => exact rxStep_unharmed h hu hs
  | expire i =>
    simp only [step] at hs
    split_ifs at hs
    obtain rfl := Option.some.inj hs
    exact unharmed_modifyCtx hu (hu i)
  | cb i => exact cbStep_unharmed h hu hq hs

theorem undisturbed_unraced {a : Act} (hq : Undisturbed s a) : Unraced s a := by
  cases a with
  | cb i =>
    intro hc
    simpa [Undisturbed, hc] using hq
  | rx f alloc vif => trivial
  | rxStep => trivial
  | expire i => trivial

/-- A callback at its unlock reads a context that was freed. -/
theorem unlocking_freed (h : Accounted s) {i : ℕ} (hc : (s.ctx i).cb = .unlock) :
    0 < (s.ctx i).ctrlFrees := by
  have hne : (s.ctx i).cb ≠ .none := by simp [hc]
  by_contra hn
  rcases (h.live i (h.listed_of_cb hne (by omega))).2.2.2 with hx | hx | hx | hx
  · simp [h.unarmed hne] at hx
  · simp [hc] at hx
  · simp [hc] at hx
  · exact absurd hx (h.not_setup (Or.inl hne))

theorem lifetime_undisturbed {tailroom : ℕ} {a : Act} (h : Accounted s)
    (hn : ∀ t ∈ step tailroom s a, Lifetime t) : Undisturbed s a := by
  cases a with
  | cb i =>
    cases hc : (s.ctx i).cb with
    | none => simp [Undisturbed, hc]
    | started =>
      have hi := h.lt_of_cb (i := i) (by simp [hc])
      have hread : step tailroom s (.cb i) =
          some (modifyCtx s i fun c => { c.touchCtrl with cb := .waiting }) := by
        simp [step, cbStep, hc]
      have ht := (hn _ hread i hi).2
      simp only [modifyCtx_self, Context.touchCtrl, Bool.or_eq_false_iff,
        decide_eq_false_iff_not] at ht
      simp only [Undisturbed, hc]
      omega
    | waiting =>
      have hr := freedOnce_unraced h fun t ht j hj => (hn t ht j hj).1
      simpa [Undisturbed, hc] using hr hc
    | unlock =>
      have hi := h.lt_of_cb (i := i) (by simp [hc])
      have hread : step tailroom s (.cb i) = some { modifyCtx s i
          (fun c => { c.touchCtrl with cb := .none }) with locked := false } := by
        simp [step, cbStep, hc]
      have ht := (hn _ hread i hi).2
      have hf := unlocking_freed h hc
      simp only [modifyCtx, Function.update_self, Context.touchCtrl, Bool.or_eq_false_iff,
        decide_eq_false_iff_not] at ht
      omega
  | rx f alloc vif => trivial
  | rxStep => trivial
  | expire i => trivial

end

/-- Contexts and their buffers end exactly once in every state of a run exactly
when no callback in it gets the lock after a last fragment took its context. -/
theorem run_freedOnce_iff (tailroom : ℕ) (acts : List Act) :
    Throughout (step tailroom) (fun s => ∀ i < s.next, FreedOnce s i) init acts ↔
      Meets (step tailroom) Unraced init acts :=
  throughout_iff (fun _ _ _ hu hs h => step_accounted h hu hs) (fun _ h _ hi => h.freedOnce hi)
    (fun _ _ h hn => freedOnce_unraced h hn) init_accounted acts

/-- What `DefragMachine` keeps of the state. -/
def hw (s : Machine) : RwnxHw := ⟨s.defragList.map Prod.snd, false⟩

theorem findCtx_hw (f : RxFrame) (s : Machine) :
    findDefrag f (hw s).defragList = (findCtx f s).map Prod.snd := by
  rw [findDefrag, hw, findCtx, List.find?_map]
  rfl

theorem listDel_putCtx (s : Machine) (i : ℕ) (d : DefragCtrlInfo) :
    (listDel (putCtx s i d) i).defragList = (listDel s i).defragList := by
  simp only [listDel, putCtx]
  induction s.defragList with
  | nil => rfl
  | cons e l ih => by_cases he : e.1 = i <;> simpa [he] using ih

theorem putDefrag_map {f : RxFrame} {d : DefragCtrlInfo} {l : List (ℕ × DefragCtrlInfo)} {i : ℕ}
    {c : DefragCtrlInfo} (hn : (l.map Prod.fst).Nodup)
    (hf : l.find? (fun e => e.2.matches f) = some (i, c)) :
    putDefrag f (some d) (l.map Prod.snd) =
        (l.map (fun e => if e.1 = i then (i, d) else e)).map Prod.snd ∧
      putDefrag f none (l.map Prod.snd) = (l.filter (fun e => e.1 ≠ i)).map Prod.snd := by
  induction l with
  | nil => simp at hf
  | cons e l ih =>
    obtain ⟨hne, hn⟩ := List.nodup_cons.mp hn
    cases hm : e.2.matches f with
    | true =>
      simp only [List.find?_cons, hm, Option.some.injEq] at hf
      subst hf
      have hother : ∀ x ∈ l, x.1 ≠ i := fun x hx hxi => hne (List.mem_map.mpr ⟨x, hx, hxi⟩)
      have hmap : l.map (fun e => if e.1 = i then (i, d) else e) = l := by
        conv_rhs => rw [← List.map_id l]
        exact List.map_congr_left fun x hx => if_neg (hother x hx)
      have hfilter : l.filter (fun e => e.1 ≠ i) = l :=
        List.filter_eq_self.mpr fun x hx => by simpa using hother x hx
      simp only at hm
      simp only [List.map_cons, putDefrag, hm, if_true, hmap, List.filter_cons, hfilter,
        Option.toList_some, Option.toList_none, List.nil_append, List.singleton_append, ne_eq,
        not_true_eq_false, decide_false, Bool.false_eq_true, if_false, and_self]
    | false =>
      simp only [List.find?_cons, hm] at hf
      obtain ⟨h1, h2⟩ := ih hn hf
      have hei : e.1 ≠ i := by
        rintro rfl
        exact hne (List.mem_map.mpr ⟨_, List.mem_of_find?_eq_some hf, rfl⟩)
      simp only [List.map_cons, putDefrag, hm, Bool.false_eq_true, if_false, h1, h2,
        List.filter_cons, ne_eq, hei, not_false_eq_true, decide_true, if_true, and_self]

theorem moreFragment_hw {tailroom : ℕ} {s t : Machine} (hn : (ids s).Nodup) {f : RxFrame}
    {alloc : Bool} (hs : moreFragment tailroom s f alloc = some t) :
    (DefragMachine.moreFragment tailroom (hw s) f alloc).1 = hw t := by
  have hfind := findCtx_hw f s
  unfold moreFragment at hs
  unfold DefragMachine.moreFragment
  split at hs
  · rename_i i c hc
    rw [hfind, hc]
    simp only [Option.map_some]
    split_ifs at hs ⊢
    · rw [Option.some.inj hs]
    · obtain ⟨d, hd, rfl⟩ := Option.map_eq_some_iff.mp hs
      simp only [hd, hw]
      rw [(putDefrag_map hn hc).1]
      rfl
  · rename_i hc
    rw [hfind, hc]
    simp only [Option.map_none]
    split_ifs at hs ⊢
    · rw [Option.some.inj hs]
    · obtain ⟨d, hd, rfl⟩ := Option.map_eq_some_iff.mp hs
      simp only [hd, hw, List.map_append, List.map_cons, List.map_nil]

theorem lastFragment_hw {tailroom : ℕ} {s t : Machine} (hn : (ids s).Nodup) {f : RxFrame}
    {vif : Bool} (hs : lastFragment tailroom s f vif = some t) :
    (DefragMachine.lastFragment tailroom (hw s) f vif).1 = hw t := by
  have hfind := findCtx_hw f s
  unfold lastFragment at hs
  unfold DefragMachine.lastFragment
  split at hs
  · rename_i i c hc
    rw [hfind, hc]
    simp only [Option.map_some]
    split_ifs at hs ⊢
    · rw [Option.some.inj hs]
    · obtain ⟨d, hd, rfl⟩ := Option.map_eq_some_iff.mp hs
      simp only [hd, hw]
      rw [(putDefrag_map (d := d) hn hc).2]
      exact congrArg (fun l => RwnxHw.mk (l.map Prod.snd) false) (listDel_putCtx s i d).symm
    · obtain ⟨d, hd, rfl⟩ := Option.map_eq_some_iff.mp hs
      simp only [hd, hw]
      rw [(putDefrag_map hn hc).1]
      rfl
  · rename_i hc
    rw [hfind, hc]
    simp only [Option.map_none]
    rw [Option.some.inj hs]

/-- The thread does to the list what `rwnxRxdataind` does. -/
theorem rxFrame_hw {tailroom : ℕ} {s t : Machine} (hn : (ids s).Nodup) {f : RxFrame}
    {alloc vif : Bool} (hs : rxFrame tailroom s f alloc vif = some t) :
    (rwnxRxdataind tailroom (hw s) f alloc vif).1 = hw t := by
  unfold rxFrame at hs
  split_ifs at hs with hfrag hlock hmore
  · obtain rfl := Option.some.inj hs
    simp only [isFragment, Bool.not_eq_true', Bool.and_eq_false_iff, Bool.not_eq_false'] at hfrag
    unfold rwnxRxdataind
    split_ifs <;> simp_all
  · have hframe : rwnxRxdataind tailroom (hw s) f alloc vif =
        DefragMachine.moreFragment tailroom (hw s) f alloc := by
      simp_all [isFragment, rwnxRxdataind]
    rw [hframe]
    exact moreFragment_hw (s := walk s) hn hs
  · have hframe : rwnxRxdataind tailroom (hw s) f alloc vif =
        DefragMachine.lastFragment tailroom (hw s) f vif := by
      simp_all [isFragment, rwnxRxdataind]
    rw [hframe]
    exact lastFragment_hw (s := walk s) hn hs

theorem run_rx_hw {tailroom : ℕ} {acts : List Act} {s t : Machine}
    (hm : Meets (step tailroom) Unraced init acts) (h : exec (step tailroom) init acts = some s)
    {f : RxFrame} {alloc vif : Bool} (hs : step tailroom s (.rx f alloc vif) = some t) :
    (rwnxRxdataind tailroom (hw s) f alloc vif).1 = hw t := by
  have ha : Accounted s :=
    exec_invariant (fun _ _ _ hu hs ha => step_accounted ha hu hs) init_accounted hm h
  simp only [step] at hs
  split_ifs at hs
  exact rxFrame_hw ha.nodup hs

/-! ## Expiry beside the last fragment -/

/-- The timer of a context runs out; its callback waits for the lock while the
last fragment completes the context. -/
def overlapRun : List Act :=
  [.rx (DefragIntegrity.sampleFragment 2 0 true) true true, .rxStep, .expire 0, .cb 0,
    .rx (DefragIntegrity.sampleFragment 2 1 false) true true, .cb 0, .rxStep, .cb 0]

end AIC.DefragLifetime
