import Aic8800.Lib.ByteText
import Aic8800.Lib.LastWrite
import Mathlib.Data.FinEnum
import Mathlib.Data.List.Nodup
import Mathlib.Data.List.Pairwise

/-!
# The power table of the user

`rwnx_plat_nvram_set_value` and `rwnx_plat_nvram_set_value_v3` store a number under the fields of
`userconfig_info` that a key names.
-/

set_option autoImplicit false

namespace AIC.PowerTable
open Lib.ByteText

/-! ## Fields -/

inductive LvlName where
  | enable | dsss | ofdmlowrate2g4 | ofdm64qam2g4 | ofdm256qam2g4 | ofdm1024qam2g4
  | ofdmlowrate5g | ofdm64qam5g | ofdm256qam5g | ofdm1024qam5g
  deriving DecidableEq

/-- The tables of `txpwr_lvl_conf_v2_t` and `txpwr_lvl_conf_v3_t`. -/
inductive LvlTable where
  | b11ag2g4 | n11ac2g4 | ax2g4 | a5g | n11ac5g | ax5g
  deriving DecidableEq

inductive OfstName where
  | enable | chan1to4 | chan5to9 | chan10to13 | chan36to64 | chan100to120 | chan122to140
  | chan142to165
  deriving DecidableEq

inductive XtalName where
  | enable | xtalCap | xtalCapFine
  deriving DecidableEq

/-- The bytes of `userconfig_info`. -/
inductive Field where
  | txpwrLvl (name : LvlName)
  | txpwrLvlV2Enable
  | txpwrLvlV2 (table : LvlTable) (i : ℕ)
  | txpwrLvlV3Enable
  | txpwrLvlV3 (table : LvlTable) (i : ℕ)
  | lossEnable
  | lossValue
  | txpwrOfst (name : OfstName)
  | txpwrOfst2xEnable
  | pwrofst2xTbl2g4 (i j : ℕ)
  | pwrofst2xTbl5g (i j : ℕ)
  | xtalCap (name : XtalName)
  deriving DecidableEq

abbrev UserConfig := Field → UInt8

/-! ## Keys -/

/-- A key and the fields that are set under it. -/
structure Row where
  key : List UInt8
  fields : List Field

def row (key : String) (fields : List Field) : Row := ⟨ascii key, fields⟩

/-- A row for each name, with the same text before and behind it. -/
def rows (before behind : String) (names : List String) (field : ℕ → Field) : List Row :=
  names.zipIdx.map fun n => ⟨ascii before++ascii n.1++ascii behind, [field n.2]⟩

def rates : List String :=
  ["1m", "2m", "5m5", "11m", "6m", "9m", "12m", "18m", "24m", "36m", "48m", "54m"]

def mcs : List String :=
  ["mcs0", "mcs1", "mcs2", "mcs3", "mcs4", "mcs5", "mcs6", "mcs7", "mcs8", "mcs9", "mcs10",
   "mcs11"]

def lvlRows : List Row :=
  [row "dsss" [.txpwrLvl .dsss],
   row "ofdmlowrate_2g4" [.txpwrLvl .ofdmlowrate2g4],
   row "ofdm64qam_2g4" [.txpwrLvl .ofdm64qam2g4],
   row "ofdm256qam_2g4" [.txpwrLvl .ofdm256qam2g4],
   row "ofdm1024qam_2g4" [.txpwrLvl .ofdm1024qam2g4],
   row "ofdmlowrate_5g" [.txpwrLvl .ofdmlowrate5g],
   row "ofdm64qam_5g" [.txpwrLvl .ofdm64qam5g],
   row "ofdm256qam_5g" [.txpwrLvl .ofdm256qam5g],
   row "ofdm1024qam_5g" [.txpwrLvl .ofdm1024qam5g]]

/-- The levels at 2.4 GHz, for the fields of one version. -/
def rows2g4 (field : LvlTable → ℕ → Field) : List Row :=
  rows "lvl_11b_11ag_" "_2g4" rates (field .b11ag2g4)++
  rows "lvl_11n_11ac_" "_2g4" (mcs.take 10) (field .n11ac2g4)++
  rows "lvl_11ax_" "_2g4" mcs (field .ax2g4)

/-- The levels at 5 GHz, which only the third version has. -/
def rows5g (field : LvlTable → ℕ → Field) : List Row :=
  rows "lvl_11a_" "_5g" rates (field .a5g)++
  rows "lvl_11n_11ac_" "_5g" (mcs.take 10) (field .n11ac5g)++
  rows "lvl_11ax_" "_5g" mcs (field .ax5g)

def ofstRows : List Row :=
  [row "ofst_chan_1_4" [.txpwrOfst .chan1to4],
   row "ofst_chan_5_9" [.txpwrOfst .chan5to9],
   row "ofst_chan_10_13" [.txpwrOfst .chan10to13],
   row "ofst_chan_36_64" [.txpwrOfst .chan36to64],
   row "ofst_chan_100_120" [.txpwrOfst .chan100to120],
   row "ofst_chan_122_140" [.txpwrOfst .chan122to140],
   row "ofst_chan_142_165" [.txpwrOfst .chan142to165]]

def xtalRows : List Row :=
  [row "xtal_enable" [.xtalCap .enable],
   row "xtal_cap" [.xtalCap .xtalCap],
   row "xtal_cap_fine" [.xtalCap .xtalCapFine]]

def chans2g4 : List String := ["1_4", "5_9", "10_13"]

def chans5g : List String := ["42", "58", "106", "122", "138", "155"]

/-- The keys of `rwnx_plat_nvram_set_value`. -/
def table2 : List Row :=
  [row "enable" [.txpwrLvl .enable, .txpwrLvlV2Enable]]++lvlRows++rows2g4 .txpwrLvlV2++
  [row "ofst_enable" [.txpwrOfst .enable]]++ofstRows++xtalRows

/-- The keys of `rwnx_plat_nvram_set_value_v3` before the one with a field of its own. -/
def table3First : List Row :=
  [row "enable" [.txpwrLvl .enable, .txpwrLvlV3Enable]]++lvlRows++rows2g4 .txpwrLvlV3++
  rows5g .txpwrLvlV3++
  [row "loss_enable" [.lossEnable], row "loss_value" [.lossValue],
   row "ofst_enable" [.txpwrOfst .enable, .txpwrOfst2xEnable]]++ofstRows++
  rows "ofst_2g4_11b_chan_" "" chans2g4 (.pwrofst2xTbl2g4 0)++
  rows "ofst_2g4_ofdm_highrate_chan_" "" chans2g4 (.pwrofst2xTbl2g4 1)++
  rows "ofst_2g4_ofdm_lowrate_chan_" "" (chans2g4.take 2) (.pwrofst2xTbl2g4 2)

/-- The keys behind it. -/
def table3Last : List Row :=
  rows "ofst_5g_ofdm_lowrate_chan_" "" chans5g (.pwrofst2xTbl5g 0)++
  rows "ofst_5g_ofdm_highrate_chan_" "" chans5g (.pwrofst2xTbl5g 1)++
  rows "ofst_5g_ofdm_midrate_chan_" "" chans5g (.pwrofst2xTbl5g 2)++xtalRows

def lowrateKey : List UInt8 := ascii "ofst_2g4_ofdm_lowrate_chan_10_13"

/-- The keys of `rwnx_plat_nvram_set_value_v3`, with `field` under the low rates of the channels
10 to 13. -/
def table3 (field : Field) : List Row := table3First++⟨lowrateKey, [field]⟩::table3Last

/-- The fields under a key, none for a key that is not known. -/
def fieldsOf (table : List Row) (key : List UInt8) : List Field :=
  match table.find? (·.key == key) with
  | some r => r.fields
  | none => []

/-! ## Numbers -/

def isdigit (c : UInt8) : Bool := 48 ≤ c && c ≤ 57

/-- The loop of `rwnx_atoi`, which gives 0 where it meets anything but a digit. -/
def atoiDigits : List UInt8 → UInt32 → UInt32
  | [], result => result
  | c::value, result =>
    if isdigit c then atoiDigits value (result*10+(c.toUInt32-48)) else 0

/-- `rwnx_atoi`. -/
def rwnxAtoi (value : List UInt8) : UInt32 :=
  match value with
  | 0x2D::value => 0-atoiDigits value 0
  | value => atoiDigits value 0

/-- What a string of digits says, and 0 for any other. -/
def decimal (value : List UInt8) : ℕ :=
  if ∀ c ∈ value, isdigit c then value.foldl (fun n c => n*10+(c.toNat-48)) 0 else 0

/-- The number of a value, as the byte of a field holds it. -/
def number (value : List UInt8) : UInt8 :=
  match value with
  | 0x2D::value => 0-UInt8.ofNat (decimal value)
  | value => UInt8.ofNat (decimal value)

/-- `rwnx_plat_nvram_set_value` and `rwnx_plat_nvram_set_value_v3`, by their keys. -/
def nvramSetValue (table : List Row) (command value : List UInt8) (config : UserConfig) :
    UserConfig :=
  fun f => if f ∈ fieldsOf table command then (rwnxAtoi value).toUInt8 else config f

/-! ## What the numbers and the tables are -/

theorem digit_sub {c : UInt8} (hc : isdigit c = true) :
    c.toUInt32-48 = UInt32.ofNat (c.toNat-48) := by
  have h48 : 48 ≤ c.toNat := by
    simp only [isdigit, Bool.and_eq_true, decide_eq_true_eq, UInt8.le_iff_toNat_le] at hc
    exact hc.1
  have hlt := c.toNat_lt
  refine UInt32.toNat_inj.mp ?_
  rw [UInt32.toNat_sub, UInt32.toNat_ofNat', UInt8.toNat_toUInt32]
  have h : UInt32.toNat 48 = 48 := rfl
  rw [h]
  omega

/-- The loop reads a string of digits as a number, modulo the size of an `int`. -/
theorem atoiDigits_eq (value : List UInt8) (n : ℕ) :
    atoiDigits value (UInt32.ofNat n) = if ∀ c ∈ value, isdigit c then
      UInt32.ofNat (value.foldl (fun n c => n*10+(c.toNat-48)) n) else 0 := by
  induction value generalizing n with
  | nil => simp [atoiDigits]
  | cons c value ih =>
    cases hc : isdigit c with
    | true =>
      have hstep : UInt32.ofNat n*10+(c.toUInt32-48) = UInt32.ofNat (n*10+(c.toNat-48)) := by
        rw [digit_sub hc, UInt32.ofNat_add, UInt32.ofNat_mul]
        rfl
      rw [atoiDigits, if_pos hc, hstep, ih]
      simp [hc]
    | false => simp [atoiDigits, hc]

theorem atoiDigits_decimal (value : List UInt8) :
    (atoiDigits value 0).toUInt8 = UInt8.ofNat (decimal value) := by
  have h := atoiDigits_eq value 0
  have h0 : UInt32.ofNat 0 = 0 := rfl
  rw [h0] at h
  rw [h, decimal]
  split
  · exact UInt8.toNat_inj.mp (by simp)
  · rfl

/-- A field holds the number that its value says. -/
theorem rwnxAtoi_number (value : List UInt8) : (rwnxAtoi value).toUInt8 = number value := by
  unfold rwnxAtoi number
  split
  · rw [UInt32.toUInt8_sub, atoiDigits_decimal]
    rfl
  · exact atoiDigits_decimal _

theorem fieldsOf_append (a b : List Row) (key : List UInt8) (h : key ∉ a.map (·.key)) :
    fieldsOf (a++b) key = fieldsOf b key := by
  have hnone : a.find? (·.key == key) = none := by
    rw [List.find?_eq_none]
    intro r hr hk
    exact h (List.mem_map.mpr ⟨r, hr, by simpa using hk⟩)
  simp only [fieldsOf, List.find?_append, hnone, Option.none_or]

/-- The other keys do not depend on the field of the low rates. -/
theorem fieldsOf_other (field field' : Field) (key : List UInt8) (h : key ≠ lowrateKey) :
    fieldsOf (table3 field) key = fieldsOf (table3 field') key := by
  have hne : (lowrateKey == key) = false := by simpa using h.symm
  simp only [fieldsOf, table3, List.find?_append, List.find?_cons, hne]

theorem fieldsOf_lowrate (field : Field) : fieldsOf (table3 field) lowrateKey = [field] := by
  rw [table3, fieldsOf_append _ _ _ (by decide +kernel)]
  simp [fieldsOf]

theorem mem_fieldsOf {table : List Row} {key : List UInt8} {f : Field}
    (h : f ∈ fieldsOf table key) : ∃ r ∈ table, r.key = key ∧ f ∈ r.fields := by
  unfold fieldsOf at h
  split at h
  · next r hr =>
    exact ⟨r, List.mem_of_find?_eq_some hr, by simpa using List.find?_some hr, h⟩
  · exact absurd h List.not_mem_nil

/-- Where no field stands twice in a table, different keys set different fields. -/
theorem fieldsOf_disjoint {table : List Row} (h : (table.flatMap (·.fields)).Nodup)
    {key key' : List UInt8} (hne : key ≠ key') {f : Field} (hf : f ∈ fieldsOf table key) :
    f ∉ fieldsOf table key' := by
  intro hf'
  obtain ⟨r, hr, rfl, hfr⟩ := mem_fieldsOf hf
  obtain ⟨r', hr', rfl, hfr'⟩ := mem_fieldsOf hf'
  have hpair := (List.nodup_flatMap.mp h).2
  have hrr : r ≠ r' := fun e => hne (congrArg Row.key e)
  have hsymm : Std.Symm (Function.onFun List.Disjoint Row.fields) :=
    ⟨fun _ _ hd _ h h' => hd h' h⟩
  exact hpair.forall hr hr' hrr hfr hfr'

/-- The two parsers. -/
inductive Version where
  | parsing2
  | parsing3
  deriving DecidableEq

/-- The field that the code sets for the low rates of the channels 10 to 13. -/
def codeField : Field := .pwrofst2xTbl2g4 2 0

/-- The field that the key names. -/
def namedField : Field := .pwrofst2xTbl2g4 2 2

def Version.table : Version → List Row
  | .parsing2 => table2
  | .parsing3 => table3 codeField

/-- The table with the fields that the keys name. -/
def Version.named : Version → List Row
  | .parsing2 => table2
  | .parsing3 => table3 namedField

theorem named_nodup (v : Version) : (v.named.flatMap (·.fields)).Nodup := by
  cases v <;> decide +kernel

/-- No key sets the field that the low rates of the channels 10 to 13 name. -/
theorem namedField_unset (key : List UInt8) :
    namedField ∉ fieldsOf (Version.table .parsing3) key := by
  intro h
  obtain ⟨r, hr, -, hf⟩ := mem_fieldsOf h
  have hall : ∀ r ∈ Version.table .parsing3, namedField ∉ r.fields := by decide +kernel
  exact hall r hr hf

/-- The key under which the code sets another field than it names. -/
def Misnamed (v : Version) (key : List UInt8) : Prop := v = .parsing3 ∧ key = lowrateKey

instance (v : Version) (key : List UInt8) : Decidable (Misnamed v key) :=
  inferInstanceAs (Decidable (_ ∧ _))

theorem fieldsOf_named {v : Version} {key : List UInt8} (h : ¬ Misnamed v key) :
    fieldsOf v.table key = fieldsOf v.named key := by
  cases v with
  | parsing2 => rfl
  | parsing3 => exact fieldsOf_other _ _ key fun hk => h ⟨rfl, hk⟩

end AIC.PowerTable
