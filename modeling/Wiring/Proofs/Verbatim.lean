import Mathlib.Data.List.Nodup
import Mathlib.Tactic.IntervalCases
import Wiring.Config.Settings

/-!
# Names from a source

A name is a setting whose text is read as a value and written back. Digits without a superfluous zero
in front are the digits of the number they stand for (`Text.toDigits_of_natural?`), so a text comes
back as it was unless it is a loose numeral: an integer in range that is written with a plus sign, with
a superfluous zero in front, or as minus zero (`Config.Value.toText_parse`).

Whether a name is set among settings or by the variable of an environment (`Config.Sets`), it is what
was set unless that is a loose numeral, and nothing else changes (`AppConfig.names_verbatim`).
-/

namespace Wiring

/-! ## Digits -/

namespace Text

variable {ds : List Char} {c : Char} {k : Nat}

theorem digitChar_of_digit? {d : Nat} (h : digit? 10 c = some d) : d < 10 ∧ Nat.digitChar d = c := by
  obtain ⟨hvalue, hlt⟩ := Option.filter_eq_some_iff.1 h
  have hlt : d < 10 := by simpa using hlt
  refine ⟨hlt, ?_⟩
  split_ifs at hvalue with hdigit <;> obtain rfl := Option.some.inj hvalue
  · have hle : c.toNat ≤ '9'.toNat := hdigit.2
    have hge : '0'.toNat ≤ c.toNat := hdigit.1
    have hnat : c = Char.ofNat c.toNat := (Char.ofNat_toNat c).symm
    generalize c.toNat = n at hle hge hnat
    subst hnat
    simp only [Char.reduceToNat] at hle hge
    interval_cases n <;> rfl
  · omega
  · omega

/-- Only the digits of zero start with a zero. -/
theorem head?_toDigits_ne (hpos : 0 < k) : (Nat.toDigits 10 k).head? ≠ some '0' := by
  induction k using Nat.strongRecOn with
  | ind k ih =>
    rcases Nat.lt_or_ge k 10 with hlt | hge
    · rw [Nat.toDigits_of_lt_base hlt]
      interval_cases k <;> decide
    · rw [Nat.toDigits_of_base_le (by decide) hge, List.head?_append,
        Option.or_of_isSome (List.isSome_head?.2 Nat.toDigits_ne_nil)]
      exact ih (k / 10) (by omega) (by omega)

/-- Digits behind those of a number that is not zero are read on. -/
theorem toDigits_append_of_foldlM {n : Nat} (hpos : 0 < n)
    (h : ds.foldlM (fun n c => (digit? 10 c).map (10 * n + ·)) n = some k) :
    Nat.toDigits 10 n ++ ds = Nat.toDigits 10 k := by
  induction ds generalizing n with
  | nil =>
    obtain rfl := Option.some.inj h
    exact List.append_nil _
  | cons c ds ih =>
    rw [List.foldlM_cons] at h
    obtain ⟨n', hn', hrest⟩ := Option.bind_eq_some_iff.1 h
    obtain ⟨d, hd, rfl⟩ := Option.map_eq_some_iff.1 hn'
    obtain ⟨hlt, hchar⟩ := digitChar_of_digit? hd
    calc Nat.toDigits 10 n ++ c :: ds
      _ = (Nat.toDigits 10 n ++ Nat.toDigits 10 d) ++ ds := by
        rw [Nat.toDigits_of_lt_base hlt, hchar, List.append_assoc, List.singleton_append]
      _ = Nat.toDigits 10 (10 * n + d) ++ ds := by
        rw [Nat.toDigits_append_toDigits (by decide) hpos hlt]
      _ = Nat.toDigits 10 k := ih (by omega) hrest

/-- Digits are those of the number they stand for unless there is a zero in front of them. -/
theorem toDigits_of_natural? (h : natural? 10 ds = some k)
    (hlead : ∀ d rest, ds ≠ '0' :: d :: rest) : Nat.toDigits 10 k = ds := by
  cases ds with
  | nil => cases h
  | cons c rest =>
    rw [natural?, List.foldlM_cons] at h
    · obtain ⟨d, hc, hrest⟩ := Option.bind_eq_some_iff.1 h
      obtain ⟨d, hd, rfl⟩ := Option.map_eq_some_iff.1 hc
      obtain ⟨hlt, rfl⟩ := digitChar_of_digit? hd
      rw [Nat.mul_zero, Nat.zero_add] at hrest
      cases rest with
      | nil =>
        obtain rfl := Option.some.inj hrest
        exact Nat.toDigits_of_lt_base hlt
      | cons c' rest =>
        have hpos : 0 < d := Nat.pos_of_ne_zero fun hzero => hlead c' rest (by rw [hzero]; rfl)
        rw [← toDigits_append_of_foldlM hpos hrest, Nat.toDigits_of_lt_base hlt]
        rfl
    · exact List.cons_ne_nil c rest

/-- The digits of a number have no superfluous zero in front. -/
theorem toDigits_ne_zero_cons {d : Char} {rest : List Char} : Nat.toDigits 10 k ≠ '0' :: d :: rest := by
  intro h
  rcases Nat.eq_zero_or_pos k with rfl | hpos
  · rw [Nat.toDigits_zero] at h
    cases h
  · exact head?_toDigits_ne hpos (h ▸ rfl)

end Text

namespace Config

/-! ## Values -/

namespace Value

/-- Numerals that are written otherwise than the integers they stand for: with a plus sign, with a
superfluous zero in front, or with a zero behind a minus sign. -/
inductive Loose : List Char → Prop
  | plus : Loose ('+' :: digits)
  | zero : Loose ('0' :: c :: digits)
  | minus : Loose ('-' :: '0' :: digits)

/-- The text is a loose numeral of an integer in range. -/
structure Respelled (raw : String) (n : Int) : Prop where
  numeral : Text.integer? 10 raw.toList = some n
  least_le : least ≤ n
  le_greatest : n ≤ greatest
  loose : Loose raw.toList

theorem toList_toString_neg (k : Nat) : (toString (-Int.ofNat k)).toList =
    if k = 0 then ['0'] else '-' :: Nat.toDigits 10 k := by
  cases k with
  | zero => rfl
  | succ k =>
    rw [if_neg (Nat.succ_ne_zero k), Int.toString_eq_repr, Int.repr_eq_if, if_neg (by simp; omega)]
    simp [Nat.repr_eq_ofList_toDigits]

theorem toList_toString_ofNat (k : Nat) : (toString (Int.ofNat k)).toList = Nat.toDigits 10 k := by
  rw [Int.toString_eq_repr, Int.repr_eq_if, if_pos (by simp)]
  simp [Nat.repr_eq_ofList_toDigits]

/-- An integer is written as the numeral it was read from unless that is loose. -/
theorem toString_eq_iff {cs : List Char} {n : Int} (h : Text.integer? 10 cs = some n) :
    (toString n).toList = cs ↔ ¬ Loose cs := by
  unfold Text.integer? at h
  split at h
  · obtain ⟨k, -, rfl⟩ := Option.map_eq_some_iff.1 h
    refine ⟨fun heq => ?_, fun hnot => (hnot .plus).elim⟩
    rw [toList_toString_ofNat] at heq
    have hmem : '+' ∈ Nat.toDigits 10 k := heq ▸ List.mem_cons_self
    exact absurd (Nat.isDigit_of_mem_toDigits (by decide) (by decide) hmem) (by decide)
  · obtain ⟨k, hk, rfl⟩ := Option.map_eq_some_iff.1 h
    rw [toList_toString_neg]
    constructor
    · rintro heq ⟨⟩
      split at heq
      · cases heq
      · next hne => exact Text.head?_toDigits_ne (Nat.pos_of_ne_zero hne) ((List.cons.inj heq).2 ▸ rfl)
    · intro hnot
      have hdigits := Text.toDigits_of_natural? hk fun d rest heq => hnot (heq ▸ .minus)
      rw [if_neg, hdigits]
      rintro rfl
      rw [Nat.toDigits_zero] at hdigits
      exact hnot (hdigits ▸ .minus)
  · next hplus hminus =>
    obtain ⟨k, hk, rfl⟩ := Option.map_eq_some_iff.1 h
    rw [toList_toString_ofNat]
    constructor
    · rintro heq (_ | _ | _)
      · exact hplus _ rfl
      · exact Text.toDigits_ne_zero_cons heq
      · exact hminus _ rfl
    · exact fun hnot => Text.toDigits_of_natural? hk fun d rest heq => hnot (heq ▸ .zero)

/-- A text that is read and written back is as it was unless it is a loose numeral; then it is the
integer as integers are written. -/
theorem toText_parse (raw : String) :
    (∀ n, Respelled raw n → (parse raw).toText = toString n ∧ toString n ≠ raw) ∧
      ((∀ n, ¬ Respelled raw n) → (parse raw).toText = raw) := by
  constructor
  · intro n h
    have hne : toString n ≠ raw := fun heq =>
      (toString_eq_iff h.numeral).1 (congrArg String.toList heq) h.loose
    have hnumeral {word : String} (hword : Text.integer? 10 word.toList = none) : raw ≠ word := by
      rintro rfl
      cases hword.symm.trans h.numeral
    refine ⟨?_, hne⟩
    rw [parse, if_neg (hnumeral (by decide)), if_neg (hnumeral (by decide)), h.numeral]
    simp only [if_pos (And.intro h.least_le h.le_greatest), toText]
  · intro hnot
    unfold parse
    split_ifs with htrue hfalse
    · exact htrue.symm
    · exact hfalse.symm
    · cases hn : Text.integer? 10 raw.toList with
      | none => rfl
      | some n =>
        dsimp only
        split_ifs with hrange
        · exact String.toList_injective ((toString_eq_iff hn).2 fun hloose =>
            hnot n ⟨hn, hrange.1, hrange.2, hloose⟩)
        · rfl

end Value

/-! ## Sources -/

section

variable {settings : List (String × String)} {name key raw : String} {s : String × String}

theorem mem_of_mem_currentSettings (h : s ∈ currentSettings settings) : s ∈ settings := by
  fun_induction currentSettings settings with
  | case1 => cases h
  | case2 setting rest _ ih => exact List.mem_cons_of_mem _ (ih h)
  | case3 setting rest _ ih =>
    rcases List.mem_cons.1 h with rfl | h
    · exact List.mem_cons_self
    · exact List.mem_cons_of_mem _ (ih h)

/-- Of several settings for one name only one counts. -/
theorem nodup_map_currentSettings (settings : List (String × String)) :
    ((currentSettings settings).map (·.1)).Nodup := by
  fun_induction currentSettings settings with
  | case1 => exact .nil
  | case2 _ _ _ ih => exact ih
  | case3 setting rest hnone ih =>
    refine List.nodup_cons.2 ⟨fun hmem => hnone (List.any_eq_true.2 ?_), ih⟩
    obtain ⟨later, hlater, heq⟩ := List.mem_map.1 hmem
    exact ⟨later, mem_of_mem_currentSettings hlater, decide_eq_true heq⟩

theorem mem_currentSettings_of_lastSetting? (h : lastSetting? settings name = some raw) :
    (name, raw) ∈ currentSettings settings := by
  obtain ⟨s, hfind, rfl⟩ := Option.map_eq_some_iff.1 h
  obtain rfl : s.1 = name :=
    of_decide_eq_true (List.find?_some (p := fun s : String × String => decide (s.1 = name)) hfind)
  exact List.mem_of_find?_eq_some hfind

/-- The settings without those for a name. -/
def without (settings : List (String × String)) (name : String) : List (String × String) :=
  settings.filter fun s => s.1 ≠ name

theorem currentSettings_without :
    currentSettings (without settings name) = without (currentSettings settings) name := by
  induction settings with
  | nil => rfl
  | cons setting rest ih =>
    by_cases hname : setting.1 = name
    · rw [without, List.filter_cons_of_neg (by simpa using hname), currentSettings]
      split
      · exact ih
      · rw [without, List.filter_cons_of_neg (by simpa using hname)]
        exact ih
    · have hany : ((without rest name).any fun later => later.1 = setting.1) =
          rest.any fun later => later.1 = setting.1 := by
        rw [without, List.any_filter]
        congr 1
        funext later
        by_cases hlater : later.1 = setting.1 <;> simp [hlater, hname]
      rw [without, List.filter_cons_of_pos (by simpa using hname), currentSettings, currentSettings,
        ← without, hany, ih]
      split
      · rfl
      · rw [without, without, List.filter_cons_of_pos (by simpa using hname)]

theorem lastSetting?_without (hne : key ≠ name) :
    lastSetting? (without settings name) key = lastSetting? settings key := by
  rw [lastSetting?, lastSetting?, currentSettings_without, without, List.find?_filter]
  congr 2
  funext s
  by_cases hkey : s.1 = key <;> simp [hkey, hne]

theorem findSome?_without {f : String × String → Option String}
    (hnone : ∀ s ∈ settings, s.1 = name → f s = none) :
    (without settings name).findSome? f = settings.findSome? f := by
  induction settings with
  | nil => rfl
  | cons s settings ih =>
    have ih := ih fun s' hs' => hnone s' (List.mem_cons_of_mem _ hs')
    by_cases hname : s.1 = name
    · rw [without, List.filter_cons_of_neg (by simpa using hname),
        List.findSome?_cons_of_isNone (by rw [hnone s List.mem_cons_self hname]; rfl)]
      exact ih
    · rw [without, List.filter_cons_of_pos (by simpa using hname), List.findSome?_cons,
        List.findSome?_cons, ← without, ih]

/-! ## Environments -/

/-- What stands behind the beginning of the line of a variable, if it begins so. -/
def lineValue? (start : String) (s : String × String) : Option String :=
  let line := s.1 ++ "=" ++ s.2
  if start.toList <+: line.toList then some (String.ofList (line.toList.drop start.length)) else none

theorem environmentValue?_eq : environmentValue? settings name =
    (currentSettings settings).findSome? (lineValue? (name ++ "=")) :=
  rfl

theorem lineValue?_eq_some_iff {start rest : String} :
    lineValue? start s = some rest ↔ s.1 ++ "=" ++ s.2 = start ++ rest := by
  rw [lineValue?, ← String.toList_inj, String.toList_append (s := start)]
  constructor
  · intro h
    split at h
    · next hprefix =>
      obtain rfl := Option.some.inj h
      obtain ⟨behind, hbehind⟩ := hprefix
      simp [← hbehind, ← String.length_toList]
    · cases h
  · intro h
    rw [if_pos ⟨_, h.symm⟩, h]
    simp [← String.length_toList]

/-- The name of a variable ends at the first equals sign of its line. -/
theorem takeWhile_line {s : String × String} (hs : '=' ∉ s.1.toList) :
    (s.1 ++ "=" ++ s.2).toList.takeWhile (· != '=') = s.1.toList := by
  have hall : ∀ c ∈ s.1.toList, (c != '=') = true := by
    intro c hc
    exact bne_iff_ne.2 fun heq => hs (heq ▸ hc)
  rw [String.toList_append, String.toList_append, List.append_assoc,
    List.takeWhile_append_of_pos hall]
  exact List.append_nil _

/-- Lines that begin alike up to an equals sign give the same variable. -/
theorem eq_of_lines {s s' : String × String} {rest rest' : String} (hs : '=' ∉ s.1.toList)
    (hs' : '=' ∉ s'.1.toList) (h : s.1 ++ "=" ++ s.2 = name ++ "=" ++ rest)
    (h' : s'.1 ++ "=" ++ s'.2 = name ++ "=" ++ rest') : s.1 = s'.1 := by
  have hbefore (cs rest rest' : List Char) : (cs ++ '=' :: rest).takeWhile (· != '=') =
      (cs ++ '=' :: rest').takeWhile (· != '=') := by
    induction cs with
    | nil => rfl
    | cons c cs ih => rw [List.cons_append, List.cons_append, List.takeWhile_cons,
        List.takeWhile_cons, ih]
  apply String.toList_injective
  rw [← takeWhile_line hs, ← takeWhile_line hs', h, h']
  simpa [String.toList_append, List.append_assoc] using
    hbefore name.toList rest.toList rest'.toList

end

/-! ## Setting a key -/

/-- A key is set to a text in the second source, and the first source is the second one without that
setting. In an environment some variable makes the line that gives the variable of the key this text;
unless there is an equals sign in the leading word, that is the variable of the key itself. -/
inductive Sets (key raw : String) : Source → Source → Prop
  | settings {settings : List (String × String)} : lastSetting? settings key = some raw →
      Sets key raw (.ofSettings (without settings key)) (.ofSettings settings)
  | environment {environment : List (String × String)} {var value : String} {lead? : Option String} :
      lastSetting? environment var = some value →
      var ++ "=" ++ value = Source.variableName lead? key ++ "=" ++ raw →
      (∀ s ∈ environment, '=' ∉ s.1.toList) →
      Sets key raw (.ofEnvironment (without environment var) lead?)
        (.ofEnvironment environment lead?)

theorem Source.get?_ofSettings {settings : List (String × String)} {key : String} :
    (ofSettings settings).get? key = (lastSetting? settings key).map Value.parse :=
  rfl

theorem Source.get?_ofEnvironment {environment : List (String × String)} {lead? : Option String}
    {key : String} : (ofEnvironment environment lead?).get? key =
      (environmentValue? environment (variableName lead? key)).map Value.parse :=
  rfl

namespace Sets

variable {key raw other : String} {plain source : Source}

theorem get?_self (h : Sets key raw plain source) : source.get? key = some (Value.parse raw) := by
  cases h with
  | settings hlast => rw [Source.get?_ofSettings, hlast, Option.map_some]
  | @environment environment var value lead? hlast hline hnames =>
    rw [Source.get?_ofEnvironment, environmentValue?_eq]
    have hmem := mem_currentSettings_of_lastSetting? hlast
    have hvalue : lineValue? (Source.variableName lead? key ++ "=") (var, value) = some raw :=
      lineValue?_eq_some_iff.2 hline
    obtain ⟨found, hfound⟩ := Option.isSome_iff_exists.1
      (List.findSome?_isSome_iff.2 ⟨_, hmem, Option.isSome_of_eq_some hvalue⟩)
    obtain ⟨s, hs, hsome⟩ := List.exists_of_findSome?_eq_some hfound
    -- No other variable has a line that begins so.
    obtain rfl : s = (var, value) := by
      refine List.inj_on_of_nodup_map (nodup_map_currentSettings environment) hs hmem ?_
      exact eq_of_lines (hnames _ (mem_of_mem_currentSettings hs))
        (hnames _ (mem_of_mem_currentSettings hmem)) (lineValue?_eq_some_iff.1 hsome) hline
    rw [hfound, ← hsome, hvalue, Option.map_some]

/-- Another key is not affected if its upper case begins with another letter. -/
theorem get?_other (h : Sets key raw plain source) (hne : other ≠ key)
    (hhead : (Text.uppercase key ++ "=").toList.head? ≠ (Text.uppercase other ++ "=").toList.head?) :
    source.get? other = plain.get? other := by
  cases h with
  | settings => exact (congrArg (Option.map Value.parse) (lastSetting?_without hne)).symm
  | @environment environment var value lead? hlast hline hnames =>
    rw [Source.get?_ofEnvironment, Source.get?_ofEnvironment, environmentValue?_eq,
      environmentValue?_eq, currentSettings_without, findSome?_without]
    intro s hs hname
    obtain rfl : s = (var, value) := List.inj_on_of_nodup_map (nodup_map_currentSettings environment)
      hs (mem_currentSettings_of_lastSetting? hlast) hname
    refine Option.eq_none_iff_forall_ne_some.2 fun rest hrest => hhead ?_
    have hlines : Text.uppercase key ++ "=" ++ raw = Text.uppercase other ++ "=" ++ rest := by
      have hlines := hline.symm.trans (lineValue?_eq_some_iff.1 hrest)
      cases lead? with
      | none => exact hlines
      | some lead => simpa [Source.variableName, String.append_assoc] using hlines
    have hfirst (upper rest : String) :
        (upper ++ "=" ++ rest).toList.head? = (upper ++ "=").toList.head? := by
      rw [String.toList_append, List.head?_append, Option.or_of_isSome (by simp)]
    rw [← hfirst _ raw, ← hfirst _ rest, hlines]

end Sets

end Config

/-! ## Settings that are names -/

/-- A setting that is a name. -/
inductive Naming where
  | application
  | container
  deriving DecidableEq, Repr

namespace Naming

/-- The key of the setting. -/
def key : Naming → String
  | application => "name"
  | container => "container_name"

/-- Gives a name and leaves the other settings as they are. -/
def rename (config : AppConfig) (name : String) : Naming → AppConfig
  | application => { config with name }
  | container => { config with container := { config.container with name } }

theorem rename_injective {config : AppConfig} {name name' : String} (naming : Naming)
    (h : naming.rename config name = naming.rename config name') : name = name' := by
  cases naming with
  | application => exact congrArg AppConfig.name h
  | container => exact congrArg (fun config => config.container.name) h

end Naming

namespace AppConfig

variable {raw : String} {plain source : Config.Source}

/-- A name is the text of the value that its setting is read as; nothing else changes. -/
theorem load_of_sets {naming : Naming} (h : Config.Sets naming.key raw plain source) :
    load source = naming.rename (load plain) (Config.Value.parse raw).toText := by
  have horder : source.get? "log_order" = plain.get? "log_order" := by
    cases naming <;> exact h.get?_other (by decide) (by decide)
  cases naming with
  | application =>
    have hcontainer : source.get? "container_name" = plain.get? "container_name" :=
      h.get?_other (by decide) (by decide)
    have hself : source.get? "name" = some (Config.Value.parse raw) := h.get?_self
    simp [load, ContainerConfig.load, hself, hcontainer, horder, Naming.rename]
  | container =>
    have hname : source.get? "name" = plain.get? "name" := h.get?_other (by decide) (by decide)
    have hself : source.get? "container_name" = some (Config.Value.parse raw) := h.get?_self
    simp [load, ContainerConfig.load, hself, hname, horder, Naming.rename]

/-- If a name is set to a text, among settings or in an environment behind any leading word, then the
text is the name exactly if it is no loose numeral of an integer in range, whatever else it looks like;
such a numeral is replaced by the integer as integers are written. No other setting changes. -/
theorem names_verbatim {naming : Naming} (h : Config.Sets naming.key raw plain source) :
    (load source = naming.rename (load plain) raw ↔ ∀ n, ¬ Config.Value.Respelled raw n) ∧
      ∀ n, Config.Value.Respelled raw n →
        load source = naming.rename (load plain) (toString n) := by
  obtain ⟨hrespelled, hkept⟩ := Config.Value.toText_parse raw
  rw [load_of_sets h]
  refine ⟨⟨fun heq n hn => ?_, fun hnot => by rw [hkept hnot]⟩, fun n hn => by rw [(hrespelled n hn).1]⟩
  obtain ⟨htext, hne⟩ := hrespelled n hn
  exact hne (htext.symm.trans (naming.rename_injective heq))

/-- A container's name that a variable gives as a number is kept as it is written. -/
theorem names_verbatim_number :
    let environment := [("SHOP_NAME", "-0x"), ("SHOP_CONTAINER_NAME", "42"), ("SHOP_LOG_ORDER", "false")]
    Config.Sets "container_name" "42"
        (.ofEnvironment (Config.without environment "SHOP_CONTAINER_NAME") (some "shop"))
        (.ofEnvironment environment (some "shop")) ∧
      load (.ofEnvironment environment (some "shop")) =
        { name := "-0x", container := { name := "42", logOrder := false } } := by
  intro environment
  have hlast : Config.lastSetting? environment "SHOP_CONTAINER_NAME" = some "42" := by decide
  have hset : Config.Sets Naming.container.key "42"
      (.ofEnvironment (Config.without environment "SHOP_CONTAINER_NAME") (some "shop"))
      (.ofEnvironment environment (some "shop")) :=
    .environment hlast (by decide) (by decide)
  have hkept := (names_verbatim hset).1.2 fun n hn => by
    cases hn.loose
  exact ⟨hset, hkept.trans (by decide)⟩

/-- A name of digits with a zero in front is not kept, neither among settings nor in an environment. -/
theorem names_not_verbatim_padded :
    ¬ ∀ naming raw plain source, Config.Sets (Naming.key naming) raw plain source →
      load source = naming.rename (load plain) raw := by
  intro h
  have heq := h .application "007" _ (.ofSettings [("name", "007")]) (.settings (by decide))
  exact absurd (congrArg AppConfig.name heq) (by decide)

end AppConfig

end Wiring
