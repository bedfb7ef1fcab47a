import Aic8800.Lib.ElementList
import Aic8800.Lib.FlatMemory
import Mathlib.Data.List.GetD

/-!
# Vendor extensions in a scan request

`rwnx_insert_vendor_extension_data` looks for the vendor extension attribute of WPS in the
elements of a scan request and inserts the extension that the user has set.
-/

set_option autoImplicit false

namespace AIC.VendorExtension
open Lib.ElementList Lib.FlatMemory

/-- `struct scanu_vendor_ie_req`, with what lies behind its 256 bytes. -/
structure ScanuVendorIeReq where
  addIeLen : ℕ
  ie : ℕ → UInt8

/-- The bytes that are compared at `index`, one behind `vendor_extension_id[0]`. -/
def Matches (ie : ℕ → UInt8) (index : ℕ) : Prop :=
  ie index = 0x49 ∧ ie (index+3) = 0x00 ∧ ie (index+4) = 0x37 ∧ ie (index+5) = 0x2A

instance (ie : ℕ → UInt8) (index : ℕ) : Decidable (Matches ie index) :=
  inferInstanceAs (Decidable (_ ∧ _ ∧ _ ∧ _))

/-- The search from `index` on: `index` and the length at its end, unless it returns. -/
def search (ie : ℕ → UInt8) (n : ℕ) : ℕ → ℕ → Option (ℕ × ℕ)
  | 0, index => some (index, 0)
  | fuel+1, index =>
    if index < n then
      if ie index = 0x10 then
        if index+1 = n then none
        else if Matches ie (index+1) then some (index+3, (ie (index+3)).toNat)
        else search ie n fuel (index+2)
      else search ie n fuel (index+1)
    else some (index, 0)

/-- The three copies into `temp_ie`. -/
def tempIe (x : List UInt8) (req : ScanuVendorIeReq) (index : ℕ) : ℕ → UInt8 :=
  copy (index+1+x.length) (index+1) (req.addIeLen-index) req.ie
    (store (index+1) x (copy 0 0 (index+1) req.ie fun _ => 0))

/-- What is copied back, and the lengths that grow. -/
def inserted (x : List UInt8) (req : ScanuVendorIeReq) (index : ℕ) : ScanuVendorIeReq :=
  let ie := copy 0 0 (req.addIeLen+x.length) (tempIe x req index) req.ie
  { addIeLen := req.addIeLen+x.length
    ie := fill 1 1 (ie 1+UInt8.ofNat x.length) ie }

/-- `rwnx_insert_vendor_extension_data` with the extension `x`. Behind the elements the size of
the last copy into `temp_ie` is negative. -/
def insertVendorExtensionData (x : List UInt8) (req : ScanuVendorIeReq) :
    Option ScanuVendorIeReq :=
  match search req.ie req.addIeLen req.addIeLen 0 with
  | none => some req
  | some (index, len) =>
    if index+len ≤ req.addIeLen then some (inserted x req (index+len)) else none

/-! ## What the extension is for -/

def bytes (es : List Element) : List UInt8 := es.flatMap Element.bytes

/-- The end of the first vendor extension attribute among attributes, each a type and a length of
two bytes and a value. -/
def attributeEnd : ℕ → List UInt8 → Option ℕ
  | fuel+1, t₁::t₂::l₁::l₂::rest =>
    let len := l₁.toNat*256+l₂.toNat
    if rest.length < len then none
    else if t₁ = 0x10 ∧ t₂ = 0x49 ∧ 3 ≤ len ∧ rest.take 3 = [0x00, 0x37, 0x2A] then some (4+len)
    else (attributeEnd fuel (rest.drop len)).map (4+len+·)
  | _, _ => none

/-- The end of the attribute in the value of an element of WPS. -/
def vendorEnd (e : Element) : Option ℕ :=
  if e.id = 221 ∧ e.value.take 4 = [0x00, 0x50, 0xF2, 0x04] then
    (attributeEnd e.value.length (e.value.drop 4)).map (4+·)
  else none

/-- An element with `x` inserted at `k` of its value. -/
def insertAt (x : List UInt8) (e : Element) (k : ℕ) : Element :=
  if h : (e.value.take k++(x++e.value.drop k)).length < 256 then
    ⟨e.id, e.value.take k++(x++e.value.drop k), h⟩
  else e

/-- The sequence with the extension right after the attribute. -/
def extended (x : List UInt8) : List Element → List Element
  | [] => []
  | e::es =>
    match vendorEnd e with
    | some k => insertAt x e k::es
    | none => e::extended x es

/-- Where the element that contains the attribute begins, and where the attribute ends. -/
def place : ℕ → List Element → Option (ℕ × ℕ)
  | _, [] => none
  | start, e::es =>
    match vendorEnd e with
    | some k => some (start, start+2+k)
    | none => place (start+e.bytes.length) es

/-- A request with the elements, zeros behind them and any memory behind the request. -/
def request (es : List Element) (beyond : ℕ → UInt8) : ScanuVendorIeReq :=
  { addIeLen := (bytes es).length
    ie := fun i =>
      if i < (bytes es).length then (bytes es).getD i 0
      else if i < 256 then 0 else beyond (i-256) }

/-- The request holds the extended elements and nothing else. -/
def Right (es : List Element) (beyond : ℕ → UInt8) (x : List UInt8) : Prop :=
  ∃ req, insertVendorExtensionData x (request es beyond) = some req ∧
    cells req.ie 0 req.addIeLen = bytes (extended x es)

/-! ## What the search finds -/

/-- How many bytes `0x10` stand directly before `k`. -/
def run (ie : ℕ → UInt8) : ℕ → ℕ
  | 0 => 0
  | k+1 => if ie k = 0x10 then run ie k+1 else 0

/-- The bytes at `k` look like the attribute, and the search does not step over them. -/
def Found (ie : ℕ → UInt8) (n k : ℕ) : Prop :=
  k+1 < n ∧ ie k = 0x10 ∧ run ie k % 2 = 0 ∧ Matches ie (k+1)

/-- What the search from `index` on answers, with `r` for its result. -/
structure Answers (ie : ℕ → UInt8) (n index : ℕ) (r : Option (ℕ × ℕ)) : Prop where
  returned : r = none → (∀ k, index ≤ k → ¬ Found ie n k) ∧ run ie n % 2 = 1
  result : ∀ i len, r = some (i, len) →
    (∃ k, index ≤ k ∧ Found ie n k ∧ (∀ j, index ≤ j → j < k → ¬ Found ie n j) ∧
      i = k+3 ∧ len = (ie (k+3)).toNat) ∨
    ((∀ k, index ≤ k → ¬ Found ie n k) ∧ run ie n % 2 = 0 ∧ i = n ∧ len = 0)

section
variable {ie : ℕ → UInt8} {n index : ℕ} {r : Option (ℕ × ℕ)}

/-- Bytes at which nothing is found may be left out. -/
theorem Answers.back {next : ℕ} (hr : Answers ie n next r)
    (h : ∀ k, index ≤ k → k < next → ¬ Found ie n k) (hle : index ≤ next) :
    Answers ie n index r := by
  have hall : (∀ k, next ≤ k → ¬ Found ie n k) → ∀ k, index ≤ k → ¬ Found ie n k := by
    intro hn k hk
    rcases Nat.lt_or_ge k next with hlt | hge
    · exact h k hk hlt
    · exact hn k hge
  refine ⟨fun hr' => ?_, fun i len hr' => ?_⟩
  · obtain ⟨hn, hodd⟩ := hr.returned hr'
    exact ⟨hall hn, hodd⟩
  · rcases hr.result i len hr' with ⟨k, hk, hf, hmin, hi⟩ | ⟨hn, hrest⟩
    · refine .inl ⟨k, Nat.le_trans hle hk, hf, fun j hj hjk => ?_, hi⟩
      rcases Nat.lt_or_ge j next with hlt | hge
      · exact h j hj hlt
      · exact hmin j hge hjk
    · exact .inr ⟨hall hn, hrest⟩

theorem Answers.stop (hn : n ≤ index) (hidx : index ≤ n) (heven : run ie index % 2 = 0) :
    Answers ie n index (some (index, 0)) := by
  obtain rfl : index = n := Nat.le_antisymm hidx hn
  refine ⟨nofun, fun i len h => .inr ⟨fun k hk hf => ?_, heven, ?_⟩⟩
  · have := hf.1
    omega
  · cases h
    exact ⟨rfl, rfl⟩

/-- The search visits the places before which an even number of `0x10` stands. -/
theorem search_answers (fuel : ℕ) (hfuel : n ≤ index+fuel) (hidx : index ≤ n)
    (heven : run ie index % 2 = 0) : Answers ie n index (search ie n fuel index) := by
  induction fuel generalizing index with
  | zero => exact .stop hfuel hidx heven
  | succ fuel ih =>
    rw [search]
    split
    · next hlt =>
      split
      · next h10 =>
        have hrun : run ie (index+1) = run ie index+1 := by rw [run, if_pos h10]
        split
        · next hend =>
          -- the last byte is a `0x10` that the search visits
          refine ⟨fun _ => ⟨fun k hk hf => ?_, ?_⟩, nofun⟩
          · have := hf.1
            omega
          · rw [← hend, hrun]
            omega
        · next hend =>
          split
          · next hm =>
            refine ⟨nofun, fun i len h => .inl ⟨index, Nat.le_refl _, ?_, ?_, ?_⟩⟩
            · exact ⟨by omega, h10, heven, hm⟩
            · intro j h1 h2
              omega
            · cases h
              exact ⟨rfl, rfl⟩
          · next hm =>
            refine .back (ih (by omega) (by omega) ?_) (fun k hk hk2 hf => ?_) (by omega)
            · -- the byte that is stepped over is the second of a pair, or no `0x10`
              rw [show index+2 = index+1+1 from rfl, run]
              split
              · omega
              · rfl
            · obtain rfl | rfl : k = index ∨ k = index+1 := by omega
              · exact hm hf.2.2.2
              · have := hf.2.2.1
                omega
      · next h10 =>
        refine .back (ih (by omega) (by omega) ?_) (fun k hk hk2 hf => ?_) (Nat.le_succ _)
        · rw [run, if_neg h10]
        · obtain rfl : k = index := by omega
          exact h10 hf.2.1
    · next hlt => exact .stop (Nat.not_lt.mp hlt) hidx heven

end

/-! ## Where the bytes come to lie -/

section
variable {x : List UInt8} {req : ScanuVendorIeReq} {index j : ℕ}

/-- The bytes of the request with `x` behind the one at `index`. -/
def spliced (x : List UInt8) (ie : ℕ → UInt8) (index j : ℕ) : UInt8 :=
  if j ≤ index then ie j
  else if j < index+1+x.length then x.getD (j-(index+1)) 0
  else ie (j-x.length)

theorem tempIe_eq (hindex : index ≤ req.addIeLen) (hj : j < req.addIeLen+x.length) :
    tempIe x req index j = spliced x req.ie index j := by
  unfold tempIe spliced
  split
  · next h =>
    rw [copy_outside (.inl (by omega)), store_outside (.inl (by omega))]
    obtain ⟨i, rfl⟩ : ∃ i, j = 0+i := ⟨j, (Nat.zero_add j).symm⟩
    rw [copy_inside (by omega)]
  · next h =>
    split
    · next h2 =>
      obtain ⟨i, rfl⟩ : ∃ i, j = index+1+i := ⟨j-(index+1), by omega⟩
      have hi : i < x.length := by omega
      rw [copy_outside (.inl (by omega)), store_inside hi, Nat.add_sub_cancel_left,
        List.getD_eq_getElem?_getD, List.getElem?_eq_getElem hi]
      rfl
    · next h2 =>
      obtain ⟨i, rfl⟩ : ∃ i, j = index+1+x.length+i := ⟨j-(index+1+x.length), by omega⟩
      rw [copy_inside (by omega)]
      congr 1
      omega

theorem inserted_ie (hindex : index ≤ req.addIeLen) (hj : j < req.addIeLen+x.length) :
    (inserted x req index).ie j =
      if j = 1 then spliced x req.ie index 1+UInt8.ofNat x.length
      else spliced x req.ie index j := by
  have hcopy : ∀ i, i < req.addIeLen+x.length →
      copy 0 0 (req.addIeLen+x.length) (tempIe x req index) req.ie i =
        spliced x req.ie index i := by
    intro i hi
    rw [← tempIe_eq hindex hi]
    have hin : copy 0 0 (req.addIeLen+x.length) (tempIe x req index) req.ie (0+i) =
        tempIe x req index (0+i) := copy_inside hi
    simpa only [Nat.zero_add] using hin
  simp only [inserted]
  split
  · next h =>
    subst h
    rw [fill, if_pos ⟨Nat.le_refl 1, Nat.lt_succ_self 1⟩, hcopy 1 hj]
  · next h => rw [fill_outside (by omega), hcopy j hj]

theorem spliced_nil (ie : ℕ → UInt8) : spliced [] ie index j = ie j := by
  unfold spliced
  simp only [List.length_nil, Nat.add_zero, Nat.sub_zero]
  split
  · rfl
  · rw [if_neg (by omega)]

end

theorem attributeEnd_bounds (fuel : ℕ) (v : List UInt8) :
    ∀ k, attributeEnd fuel v = some k → 4 ≤ k ∧ k ≤ v.length := by
  fun_induction attributeEnd fuel v with
  | case1 => exact nofun
  | case2 fuel t₁ t₂ l₁ l₂ rest len hlen hm =>
    rintro k ⟨⟩
    simp only [List.length_cons]
    omega
  | case3 fuel t₁ t₂ l₁ l₂ rest len hlen hm ih =>
    intro k h
    obtain ⟨m, hm, rfl⟩ := Option.map_eq_some_iff.mp h
    have := ih m hm
    simp only [List.length_drop, List.length_cons] at this ⊢
    omega
  | case4 => exact nofun

theorem vendorEnd_bounds {e : Element} {k : ℕ} (h : vendorEnd e = some k) :
    8 ≤ k ∧ k ≤ e.value.length := by
  unfold vendorEnd at h
  split at h
  · obtain ⟨m, hm, rfl⟩ := Option.map_eq_some_iff.mp h
    have := attributeEnd_bounds _ _ m hm
    rw [List.length_drop] at this
    omega
  · cases h

theorem bytes_length (e : Element) : e.bytes.length = e.value.length+2 := rfl

theorem insertAt_bytes {x : List UInt8} {e : Element} {k : ℕ}
    (h : e.value.length+x.length < 256) (hk : k ≤ e.value.length) :
    (insertAt x e k).bytes = e.id::(UInt8.ofNat e.value.length+UInt8.ofNat x.length)::
      (e.value.take k++(x++e.value.drop k)) := by
  have hlen : (e.value.take k++(x++e.value.drop k)).length = e.value.length+x.length := by
    simp
    omega
  have hins : insertAt x e k = ⟨e.id, e.value.take k++(x++e.value.drop k), by omega⟩ :=
    dif_pos (by omega)
  have hadd : UInt8.ofNat (e.value.take k++(x++e.value.drop k)).length =
      UInt8.ofNat e.value.length+UInt8.ofNat x.length := by
    rw [hlen, UInt8.ofNat_add]
  rw [hins, Element.bytes, hadd]

/-- The bytes of the extended sequence, from those of the sequence. -/
theorem extended_bytes (x : List UInt8) (es : List Element) (start q p : ℕ)
    (hfit : (bytes es).length+x.length ≤ 256) (h : place start es = some (q, p)) :
    ∃ q' p', q = start+q' ∧ p = start+p' ∧ q'+10 ≤ p' ∧ p' ≤ (bytes es).length ∧
      bytes (extended x es) =
        ((bytes es).set (q'+1) ((bytes es).getD (q'+1) 0+UInt8.ofNat x.length)).take p'++
          (x++(bytes es).drop p') := by
  induction es generalizing start with
  | nil => cases h
  | cons e es ih =>
    have hcons : bytes (e::es) = e.bytes++bytes es := rfl
    rw [hcons, List.length_append, bytes_length] at hfit
    cases hk : vendorEnd e with
    | some k =>
      obtain ⟨rfl, rfl⟩ : start = q ∧ start+2+k = p := by
        simpa [place, hk] using h
      obtain ⟨h8, hle⟩ := vendorEnd_bounds hk
      refine ⟨0, 2+k, rfl, Nat.add_assoc .., by omega, ?_, ?_⟩
      · rw [hcons, List.length_append, bytes_length]
        omega
      · have hext : extended x (e::es) = insertAt x e k::es := by simp only [extended, hk]
        have hcons' : bytes (insertAt x e k::es) = (insertAt x e k).bytes++bytes es := rfl
        rw [hext, hcons', insertAt_bytes (by omega) hle, hcons, Element.bytes]
        have htwo : 2+k = k+1+1 := by omega
        simp only [List.cons_append, htwo, List.set_cons_succ, List.set_cons_zero,
          List.take_succ_cons, List.drop_succ_cons, List.append_assoc]
        rw [List.take_append_of_le_length hle, List.drop_append_of_le_length hle]
        rfl
    | none =>
      have hplace : place (start+e.bytes.length) es = some (q, p) := by
        simpa [place, hk] using h
      obtain ⟨q', p', rfl, rfl, h1, h2, h3⟩ := ih (start+e.bytes.length) (by omega) hplace
      have hext : extended x (e::es) = e::extended x es := by simp only [extended, hk]
      have hcons' : bytes (e::extended x es) = e.bytes++bytes (extended x es) := rfl
      refine ⟨e.bytes.length+q', e.bytes.length+p', Nat.add_assoc .., Nat.add_assoc .., by omega,
        ?_, ?_⟩
      · rw [hcons, List.length_append]
        omega
      · have hget : (e.bytes++bytes es).getD (e.bytes.length+(q'+1)) 0 =
            (bytes es).getD (q'+1) 0 := by
          rw [List.getD_append_right _ _ _ _ (Nat.le_add_right ..), Nat.add_sub_cancel_left]
        rw [hext, hcons', h3, hcons, Nat.add_assoc e.bytes.length q' 1, hget,
          List.set_append_right _ _ (Nat.le_add_right ..), Nat.add_sub_cancel_left,
          List.take_length_add_append, List.drop_length_add_append, List.append_assoc]

/-- What the extended sequence holds at `j`. -/
theorem extended_getD (x : List UInt8) (es : List Element) (q p j : ℕ)
    (hfit : (bytes es).length+x.length ≤ 256) (h : place 0 es = some (q, p)) :
    (bytes (extended x es)).length = (bytes es).length+x.length ∧
    (bytes (extended x es)).getD j 0 =
      if j < p then
        (if j = q+1 then (bytes es).getD j 0+UInt8.ofNat x.length else (bytes es).getD j 0)
      else if j < p+x.length then x.getD (j-p) 0
      else (bytes es).getD (j-x.length) 0 := by
  obtain ⟨q', p', hq, hp, h1, h2, hb⟩ := extended_bytes x es 0 q p hfit h
  obtain ⟨rfl, rfl⟩ : q = q' ∧ p = p' := ⟨by omega, by omega⟩
  have hlen : (((bytes es).set (q+1) ((bytes es).getD (q+1) 0+UInt8.ofNat x.length)).take
      p).length = p := by
    rw [List.length_take, List.length_set]
    exact Nat.min_eq_left h2
  constructor
  · rw [hb, List.length_append, List.length_append, hlen, List.length_drop]
    omega
  · rw [hb]
    split
    · next hj =>
      rw [List.getD_append _ _ _ _ (by rwa [hlen])]
      simp only [List.getD_eq_getElem?_getD, List.getElem?_take, if_pos hj, List.getElem?_set]
      split
      · next hjq =>
        subst hjq
        rw [if_pos (by omega), if_pos rfl]
        rfl
      · next hjq => rw [if_neg (Ne.symm hjq)]
    · next hj =>
      rw [List.getD_append_right _ _ _ _ (by rw [hlen]; omega), hlen]
      split
      · next hjx => rw [List.getD_append _ _ _ _ (by omega)]
      · next hjx =>
        rw [List.getD_append_right _ _ _ _ (by omega)]
        simp only [List.getD_eq_getElem?_getD, List.getElem?_drop]
        congr 3
        omega

theorem extended_none (x : List UInt8) (es : List Element) (start : ℕ)
    (h : place start es = none) : extended x es = es := by
  induction es generalizing start with
  | nil => rfl
  | cons e es ih =>
    cases hk : vendorEnd e with
    | some k => simp [place, hk] at h
    | none =>
      have h' : place (start+e.bytes.length) es = none := by simpa [place, hk] using h
      simp only [extended, hk, ih _ h']

theorem extended_nil (es : List Element) : extended [] es = es := by
  induction es with
  | nil => rfl
  | cons e es ih =>
    cases hk : vendorEnd e with
    | some k =>
      have he : insertAt [] e k = e := by
        have hv : e.value.take k++([]++e.value.drop k) = e.value := by simp
        unfold insertAt
        split
        · simp only [hv]
        · rfl
      simp only [extended, hk, he]
    | none => simp only [extended, hk, ih]

/-! ## When the request is right -/

/-- The first place at which the search finds the attribute. -/
def First (ie : ℕ → UInt8) (n k : ℕ) : Prop := Found ie n k ∧ ∀ j < k, ¬ Found ie n j

theorem First.unique {ie : ℕ → UInt8} {n k k' : ℕ} (h : First ie n k) (h' : First ie n k') :
    k = k' := by
  rcases Nat.lt_trichotomy k k' with hlt | heq | hgt
  · exact absurd h.1 (h'.2 k hlt)
  · exact heq
  · exact absurd h'.1 (h.2 k' hgt)

/-- Where an extension can be added: nothing is found and the bytes end with a `0x10` that the
search visits, or the sequence has the attribute in its first element and what is found first ends
with it, by the low byte of its length. With 256 bytes nothing can be added, and what is found
first must not reach beyond them. -/
def Suited (es : List Element) (beyond : ℕ → UInt8) : Prop :=
  let n := (bytes es).length
  let ie := (request es beyond).ie
  if n = 256 then ∀ k, First ie n k → k+3+(ie (k+3)).toNat ≤ n
  else
    match place 0 es with
    | none => (∀ k, ¬ Found ie n k) ∧ run ie n % 2 = 1
    | some (q, p) => q = 0 ∧ ∃ k, First ie n k ∧ k+4+(ie (k+3)).toNat = p

/-- The answer of the search over the whole request. -/
theorem search_whole (ie : ℕ → UInt8) (n : ℕ) : Answers ie n 0 (search ie n n 0) :=
  search_answers n (Nat.le_add_left ..) (Nat.zero_le n) rfl

/-- The search returns where it finds nothing and the last byte is a `0x10` that it visits. -/
theorem search_none_iff (ie : ℕ → UInt8) (n : ℕ) :
    search ie n n 0 = none ↔ (∀ k, ¬ Found ie n k) ∧ run ie n % 2 = 1 := by
  have ha := search_whole ie n
  constructor
  · intro hs
    obtain ⟨hnone, hodd⟩ := ha.returned hs
    exact ⟨fun k => hnone k (Nat.zero_le k), hodd⟩
  · rintro ⟨hnone, hodd⟩
    cases hs : search ie n n 0 with
    | none => rfl
    | some r =>
      rcases ha.result r.1 r.2 hs with ⟨k, -, hf, -⟩ | ⟨-, heven, -⟩
      · exact absurd hf (hnone k)
      · omega

/-- The search ends within the elements, or not there because of what it found first. -/
theorem search_within (ie : ℕ → UInt8) (n : ℕ) :
    (∀ i len, search ie n n 0 = some (i, len) → i+len ≤ n) ↔
      ∀ k, First ie n k → k+3+(ie (k+3)).toNat ≤ n := by
  have ha := search_whole ie n
  constructor
  · intro h k hk
    cases hs : search ie n n 0 with
    | none => exact absurd hk.1 ((ha.returned hs).1 k (Nat.zero_le k))
    | some r =>
      obtain ⟨i, len⟩ := r
      rcases ha.result i len hs with ⟨k', -, hf, hmin, rfl, rfl⟩ | ⟨hn, -⟩
      · obtain rfl : k = k' := hk.unique ⟨hf, fun j hj => hmin j (Nat.zero_le j) hj⟩
        exact h _ _ hs
      · exact absurd hk.1 (hn k (Nat.zero_le k))
  · intro h i len hs
    rcases ha.result i len hs with ⟨k, -, hf, hmin, rfl, rfl⟩ | ⟨-, -, rfl, rfl⟩
    · exact h k ⟨hf, fun j hj => hmin j (Nat.zero_le j) hj⟩
    · exact Nat.le_refl _

section
variable {es : List Element} {beyond : ℕ → UInt8} {x : List UInt8}

theorem request_ie {j : ℕ} (hj : j < (bytes es).length) :
    (request es beyond).ie j = (bytes es).getD j 0 :=
  if_pos hj

theorem cells_request : cells (request es beyond).ie 0 (bytes es).length = bytes es :=
  (cells_eq_list_iff 0 _).mpr ⟨rfl, fun _ hj => request_ie hj⟩

/-- Where the search returns, the extension is dropped. -/
theorem right_returned
    (hs : search (request es beyond).ie (bytes es).length (bytes es).length 0 = none) :
    Right es beyond x ↔ bytes (extended x es) = bytes es := by
  have hins : insertVendorExtensionData x (request es beyond) = some (request es beyond) := by
    have : search (request es beyond).ie (request es beyond).addIeLen
      (request es beyond).addIeLen 0 = none := hs
    rw [insertVendorExtensionData, this]
  unfold Right
  rw [hins]
  constructor
  · rintro ⟨req, ⟨⟩, hreq⟩
    rw [← hreq]
    exact cells_request
  · intro h
    exact ⟨_, rfl, by rw [h]; exact cells_request⟩

/-- Where it does not return, the bytes are spliced, within the elements. -/
theorem right_result {i len : ℕ}
    (hs : search (request es beyond).ie (bytes es).length (bytes es).length 0 = some (i, len)) :
    Right es beyond x ↔ i+len ≤ (bytes es).length ∧
      (bytes es).length+x.length = (bytes (extended x es)).length ∧
      ∀ j < (bytes es).length+x.length,
        (if j = 1 then spliced x (request es beyond).ie (i+len) 1+UInt8.ofNat x.length
          else spliced x (request es beyond).ie (i+len) j) = (bytes (extended x es)).getD j 0 := by
  have hins : insertVendorExtensionData x (request es beyond) =
      if i+len ≤ (bytes es).length then some (inserted x (request es beyond) (i+len))
      else none := by
    have : search (request es beyond).ie (request es beyond).addIeLen
      (request es beyond).addIeLen 0 = some (i, len) := hs
    rw [insertVendorExtensionData, this]
    rfl
  unfold Right
  rw [hins]
  by_cases hle : i+len ≤ (bytes es).length
  · have hval : ∀ j < (bytes es).length+x.length,
        (inserted x (request es beyond) (i+len)).ie j =
          if j = 1 then spliced x (request es beyond).ie (i+len) 1+UInt8.ofNat x.length
          else spliced x (request es beyond).ie (i+len) j := fun j hj => inserted_ie hle hj
    rw [if_pos hle, and_iff_right hle]
    constructor
    · rintro ⟨req, ⟨⟩, hreq⟩
      obtain ⟨hn, hj⟩ := (cells_eq_list_iff 0 _).mp hreq
      exact ⟨hn, fun j h => (hval j h).symm.trans (hj j h)⟩
    · rintro ⟨hn, hj⟩
      exact ⟨_, rfl, (cells_eq_list_iff 0 _).mpr ⟨hn, fun j h => (hval j h).trans (hj j h)⟩⟩
  · rw [if_neg hle]
    exact ⟨fun ⟨_, h, _⟩ => (nomatch h), fun h => absurd h.1 hle⟩

/-- With nothing to insert, only the place matters. -/
theorem right_nil (es : List Element) (beyond : ℕ → UInt8) : Right es beyond [] ↔
    ∀ i len, search (request es beyond).ie (bytes es).length (bytes es).length 0 =
      some (i, len) → i+len ≤ (bytes es).length := by
  cases hs : search (request es beyond).ie (bytes es).length (bytes es).length 0 with
  | none =>
    rw [right_returned hs, extended_nil]
    exact ⟨fun _ => nofun, fun _ => rfl⟩
  | some r =>
    obtain ⟨i, len⟩ := r
    rw [right_result hs, extended_nil]
    constructor
    · rintro ⟨hle, -⟩ _ _ ⟨⟩
      exact hle
    · intro h
      refine ⟨h i len rfl, rfl, fun j hj => ?_⟩
      have hj' : j < (bytes es).length := hj
      have hie : (request es beyond).ie j = (bytes es).getD j 0 := request_ie hj'
      rw [spliced_nil, spliced_nil, ← hie]
      split
      · next h1 => subst h1; simp
      · rfl

/-- Without the attribute the search has to return. -/
theorem right_without (hn : (bytes es).length < 256) (hp : place 0 es = none) :
    (∀ x : List UInt8, x.length < 256 → (bytes es).length+x.length ≤ 256 → Right es beyond x) ↔
      (∀ k, ¬ Found (request es beyond).ie (bytes es).length k) ∧
        run (request es beyond).ie (bytes es).length % 2 = 1 := by
  rw [← search_none_iff]
  constructor
  · intro h
    cases hs : search (request es beyond).ie (bytes es).length (bytes es).length 0 with
    | none => rfl
    | some r =>
      obtain ⟨i, len⟩ := r
      obtain ⟨-, hlen, -⟩ := (right_result hs).mp
        (h [0] (by decide) (by simp only [List.length_singleton]; omega))
      rw [extended_none _ _ _ hp] at hlen
      simp at hlen
  · intro hs x _ _
    rw [right_returned hs, extended_none _ _ _ hp]

theorem add_two_ne (b : UInt8) : b+2 ≠ b ∧ b+2 ≠ b+1 ∧ b+1 ≠ b := by
  refine ⟨fun h => ?_, fun h => ?_, fun h => ?_⟩ <;>
  · have := congrArg UInt8.toNat h
    simp only [UInt8.toNat_add, UInt8.reduceToNat] at this
    have := b.toNat_lt
    omega

/-- One byte that is inserted tells where it was inserted, and which length has grown. -/
theorem place_unique {q p i : ℕ} (hn : (bytes es).length < 256) (hp : place 0 es = some (q, p))
    (hi : 3 ≤ i) (hile : i ≤ (bytes es).length)
    (h : ∀ y : UInt8, ∀ j < (bytes es).length+1,
      (if j = 1 then spliced [y] (request es beyond).ie i 1+1
        else spliced [y] (request es beyond).ie i j) = (bytes (extended [y] es)).getD j 0) :
    i+1 = p ∧ q = 0 := by
  obtain ⟨q', p', hq', hp', h1, h2, -⟩ :=
    extended_bytes [] es 0 q p (by simpa using Nat.le_of_lt hn) hp
  obtain ⟨rfl, rfl⟩ : q = q' ∧ p = p' := ⟨by omega, by omega⟩
  have hfit : (bytes es).length+1 ≤ 256 := hn
  have hget := fun (y : UInt8) (j : ℕ) => (extended_getD [y] es q p j hfit hp).2
  have hplace : i+1 = p := by
    rcases Nat.lt_trichotomy (i+1) p with hlt | heq | hgt
    · -- the byte after the inserted one is the one that stood there before, or its length
      have hj := h ((bytes es).getD (i+1) 0+2) (i+1) (by omega)
      rw [if_neg (by omega), hget, if_pos hlt, spliced, if_neg (by omega),
        if_pos (by simp), Nat.sub_self] at hj
      split at hj
      · exact absurd hj (add_two_ne _).2.1
      · exact absurd hj (add_two_ne _).1
    · exact heq
    · have hj := h ((request es beyond).ie p+2) p (by omega)
      rw [if_neg (by omega), hget, if_neg (by omega), if_pos (by simp), Nat.sub_self, spliced,
        if_pos (by omega)] at hj
      exact absurd hj.symm (add_two_ne _).1
  refine ⟨hplace, ?_⟩
  have hj := h 0 1 (by omega)
  rw [if_pos rfl, hget, if_pos (by omega), spliced, if_pos (by omega),
    request_ie (by omega)] at hj
  split at hj
  · omega
  · exact absurd hj (add_two_ne _).2.2

/-- With the attribute, the search has to stop at its end, in the first element. -/
theorem right_with {q p : ℕ} (hn : (bytes es).length < 256) (hp : place 0 es = some (q, p)) :
    (∀ x : List UInt8, x.length < 256 → (bytes es).length+x.length ≤ 256 → Right es beyond x) ↔
      q = 0 ∧ ∃ k, First (request es beyond).ie (bytes es).length k ∧
        k+4+((request es beyond).ie (k+3)).toNat = p := by
  have ha := search_whole (request es beyond).ie (bytes es).length
  obtain ⟨q', p', hq', hp', h1, h2, -⟩ :=
    extended_bytes [] es 0 q p (by simpa using Nat.le_of_lt hn) hp
  obtain ⟨rfl, rfl⟩ : q = q' ∧ p = p' := ⟨by omega, by omega⟩
  constructor
  · intro h
    have hfit : (bytes es).length+1 ≤ 256 := hn
    cases hs : search (request es beyond).ie (bytes es).length (bytes es).length 0 with
    | none =>
      have hb := congrArg List.length
        ((right_returned hs).mp (h [0] (by decide) (by simpa using hfit)))
      rw [(extended_getD [0] es q p 0 hfit hp).1] at hb
      simp at hb
    | some r =>
      obtain ⟨i, len⟩ := r
      have hall := fun y : UInt8 =>
        (right_result hs).mp (h [y] (by simp) (by simpa using hfit))
      have hplace : 3 ≤ i+len → i+len+1 = p ∧ q = 0 := fun h3 =>
        place_unique hn hp h3 (hall 0).1 fun y => (hall y).2.2
      rcases ha.result i len hs with ⟨k, -, hf, hmin, rfl, rfl⟩ | ⟨-, -, rfl, rfl⟩
      · obtain ⟨hk, hq⟩ := hplace (by omega)
        exact ⟨hq, k, ⟨hf, fun j hj => hmin j (Nat.zero_le j) hj⟩, by omega⟩
      · have := hplace (by omega)
        omega
  · rintro ⟨rfl, k, hk, hkp⟩ x hx hfit
    cases hs : search (request es beyond).ie (bytes es).length (bytes es).length 0 with
    | none => exact absurd hk.1 ((ha.returned hs).1 k (Nat.zero_le k))
    | some r =>
      obtain ⟨i, len⟩ := r
      have hplace : i+len+1 = p := by
        rcases ha.result i len hs with ⟨k', -, hf, hmin, rfl, rfl⟩ | ⟨hnone, -⟩
        · obtain rfl : k = k' := hk.unique ⟨hf, fun j hj => hmin j (Nat.zero_le j) hj⟩
          omega
        · exact absurd hk.1 (hnone k (Nat.zero_le k))
      have hget := fun j => (extended_getD x es 0 p j hfit hp).2
      refine (right_result hs).mpr ⟨by omega, (extended_getD x es 0 p 0 hfit hp).1.symm, ?_⟩
      intro j hj
      rw [hget, ← hplace]
      by_cases hlt : j < i+len+1
      · -- before the place the bytes stay, but for the length of the first element
        rw [if_pos hlt]
        by_cases h1 : j = 1
        · subst h1
          rw [if_pos rfl, if_pos rfl, spliced, if_pos (by omega), request_ie (by omega)]
        · rw [if_neg h1, if_neg h1, spliced, if_pos (by omega), request_ie (by omega)]
      · rw [if_neg hlt, if_neg (by omega), spliced, if_neg (by omega)]
        split
        · rfl
        · rw [request_ie (by omega)]

end

/-- Every extension that fits is inserted as it should be, exactly if the sequence is suited. -/
theorem extension_right_iff (es : List Element) (beyond : ℕ → UInt8) :
    (∀ x : List UInt8, x.length < 256 → (bytes es).length+x.length ≤ 256 → Right es beyond x) ↔
      ((bytes es).length ≤ 256 → Suited es beyond) := by
  rcases Nat.lt_trichotomy (bytes es).length 256 with hn | hn | hn
  · rw [Suited, if_neg (Nat.ne_of_lt hn), forall_prop_of_true (Nat.le_of_lt hn)]
    cases hp : place 0 es with
    | none => exact right_without hn hp
    | some r => exact right_with hn hp
  · have hnil : ∀ x : List UInt8, (bytes es).length+x.length ≤ 256 → x = [] := fun x hx =>
      List.length_eq_zero_iff.mp (by omega)
    rw [Suited, if_pos hn, forall_prop_of_true (Nat.le_of_eq hn), ← search_within, ← right_nil]
    constructor
    · intro h
      exact h [] (by decide) (Nat.le_of_eq hn)
    · intro h x _ hx
      rwa [hnil x hx]
  · exact ⟨fun _ h => absurd h (Nat.not_le.mpr hn), fun _ x _ hx => absurd hx (by omega)⟩

/-- An element of WPS with the attribute, behind another element. -/
def second : List Element :=
  [⟨1, [0x82], by decide⟩,
   ⟨221, [0x00, 0x50, 0xF2, 0x04, 0x10, 0x49, 0x00, 0x03, 0x00, 0x37, 0x2A], by decide⟩]

/-- The length of the first element grows, though the second contains the attribute. -/
theorem wrong_element : ¬ ∀ (es : List Element) (beyond : ℕ → UInt8) (x : List UInt8),
    x.length < 256 → (bytes es).length+x.length ≤ 256 → Right es beyond x := by
  intro h
  obtain ⟨req, hins, hreq⟩ := h second (fun _ => 0) [1] (by decide) (by decide)
  have hrun : (insertVendorExtensionData [1] (request second fun _ => 0)).map
      (fun req => cells req.ie 0 req.addIeLen) ≠ some (bytes (extended [1] second)) := by
    decide +kernel
  exact hrun (by rw [hins, Option.map_some, hreq])

end AIC.VendorExtension
