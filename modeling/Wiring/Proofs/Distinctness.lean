import Wiring.Provider
import Mathlib.Data.List.Basic

/-!
# Distinct addresses

A path is dotted at its last `::` outside brackets, so a path without dots can be read back from
its dotted form (`TypeName.dotted_injective`). The serial number of a callable stands behind the
last `#` of its address, whatever stands in the signature in front of it, because digits are no `#`
(`Identity.label_injective`). Layers over a named type have the place of that type, and layers over
anything else have no slot (`Descriptor.placement_layered_addressable_iff`). Dotting a name brings
in no `#`, so the slots of types are not those of callables (`Descriptor.layered_ne_label`).
`Descriptor.addresses_distinct` puts these together: different dependencies have different
addresses.
-/

namespace Wiring

/-- A list can be cut at the last occurrence of an element in one way only. -/
theorem List.cut_injective {α : Type} {x : α} {before before' behind behind' : List α}
    (hnone : x ∉ behind) (hnone' : x ∉ behind')
    (h : before ++ x :: behind = before' ++ x :: behind') :
    before = before' ∧ behind = behind' := by
  rcases List.append_eq_append_iff.mp h with ⟨as, rfl, hbehind⟩ | ⟨as, rfl, hbehind⟩
  · cases as with
    | nil => simpa using hbehind
    | cons y as =>
      obtain ⟨-, rfl⟩ : x = y ∧ behind = as ++ x :: behind' := by simpa using hbehind
      simp at hnone
  · cases as with
    | nil => simpa [eq_comm] using hbehind
    | cons y as =>
      obtain ⟨-, rfl⟩ : x = y ∧ behind' = as ++ x :: behind := by simpa using hbehind
      simp at hnone'

/-! ## Dotted names -/

namespace TypeName

variable {depth : Nat} {c : Char} {text text' scope name bound : List Char}

/-- The two parts of a path have a `::` between them. -/
theorem eq_of_splitScope? (h : splitScope? depth text = some (scope, name)) :
    text = scope ++ ':' :: ':' :: name := by
  fun_induction splitScope? depth text generalizing scope name with
  | case1 rest scope' name' hrest ih =>
    obtain ⟨rfl, rfl⟩ : ':' :: ':' :: scope' = scope ∧ name' = name := by simpa using h
    simp [ih hrest]
  | case2 rest hrest =>
    obtain ⟨rfl, rfl⟩ : [] = scope ∧ rest = name := by simpa using h
    rfl
  | case3 depth c rest _ scope' name' hrest ih =>
    obtain ⟨rfl, rfl⟩ : c :: scope' = scope ∧ name' = name := by simpa using h
    simp [ih hrest]
  | case4 => cases h
  | case5 => cases h

/-- The bound in front of a `+` is the beginning of the bounds. -/
theorem prefix_of_beforePlus? (h : beforePlus? depth text = some bound) : bound <+: text := by
  fun_induction beforePlus? depth text generalizing bound with
  | case1 => cases h
  | case2 => cases h; exact List.nil_prefix
  | case3 depth c rest _ bound' hrest ih =>
    obtain rfl : c :: bound' = bound := by simpa using h
    exact (List.prefix_cons_inj c).mpr (ih hrest)
  | case4 => cases h

/-- How a path relates to its dotted form: either there is no scope, or a `::` became a dot. -/
theorem dotPath_cases (text : List Char) :
    dotPath text = text ∨
      ∃ scope name, text = scope ++ ':' :: ':' :: name ∧ dotPath text = scope ++ '.' :: name := by
  cases hsplit : splitScope? 0 text with
  | none => exact .inl (by simp [dotPath, hsplit])
  | some parts =>
    exact .inr ⟨parts.1, parts.2, eq_of_splitScope? hsplit, by simp [dotPath, hsplit]⟩

/-- A path without dots can be read back from its dotted form. -/
theorem dotPath_injective (hdot : '.' ∉ text) (hdot' : '.' ∉ text')
    (h : dotPath text = dotPath text') : text = text' := by
  rcases dotPath_cases text with heq | ⟨scope, name, rfl, heq⟩ <;>
    rcases dotPath_cases text' with heq' | ⟨scope', name', rfl, heq'⟩ <;>
      rw [heq, heq'] at h
  · exact h
  · exact absurd (h ▸ by simp) hdot
  · exact absurd (h ▸ by simp) hdot'
  · obtain ⟨rfl, rfl⟩ := List.cut_injective (by simp_all) (by simp_all) h
    rfl

/-- A name that does not begin with `dyn ` is the path that it stands for. -/
theorem path_eq_self (h : ¬ "dyn ".toList <+: text) : path text = text := by
  unfold path
  split
  · exact absurd ⟨_, rfl⟩ h
  · rfl

/-- Two names that have no dots and list no bounds have different dotted forms. -/
theorem dotted_injective {n n' : String} (hdot : '.' ∉ n.toList) (hdot' : '.' ∉ n'.toList)
    (hdyn : ¬ "dyn ".toList <+: n.toList) (hdyn' : ¬ "dyn ".toList <+: n'.toList)
    (h : dotted n = dotted n') : n = n' := by
  have hpath := String.ofList_injective h
  rw [path_eq_self hdyn, path_eq_self hdyn'] at hpath
  exact String.toList_injective (dotPath_injective hdot hdot' hpath)

/-- What a name stands for is written with characters of the name. -/
theorem path_subset (text : List Char) : path text ⊆ text := by
  unfold path
  split
  · next bounds =>
    refine List.Subset.trans ?_ (List.subset_append_right "dyn ".toList bounds)
    unfold firstBound
    split
    · next bound hbound =>
      intro c hc
      exact (prefix_of_beforePlus? hbound).subset
        (by simpa using (List.dropWhile_suffix _).subset (List.mem_reverse.mp hc))
    · exact List.Subset.refl bounds
  · exact List.Subset.refl text

/-- The only character that dotting brings in is the dot. -/
theorem mem_of_mem_dotted {n : String} (hc : c ≠ '.') (h : c ∈ (dotted n).toList) :
    c ∈ n.toList := by
  rw [dotted, String.toList_ofList] at h
  refine path_subset _ ?_
  rcases dotPath_cases (path n.toList) with heq | ⟨scope, name, htext, heq⟩ <;> rw [heq] at h
  · exact h
  · simp only [List.mem_append, List.mem_cons, hc, false_or] at h
    rw [htext]
    exact List.mem_append.mpr (h.imp_right fun hname => .tail _ (.tail _ hname))

end TypeName

/-! ## Serial numbers -/

/-- A number is read back from its digits. -/
theorem toDigits_injective {i j : Nat} (h : Nat.toDigits 10 i = Nat.toDigits 10 j) : i = j :=
  calc
    i = Nat.ofDigitChars 10 (Nat.toDigits 10 i) 0 := Nat.ofDigitChars_ten_toDigits.symm
    _ = j := by rw [h, Nat.ofDigitChars_ten_toDigits]

/-- The serial number is read back from behind the last `#`, so the signature is as well. -/
theorem Identity.label_injective {signature signature' : String} {i j : Identity}
    (h : signature ++ "#" ++ toString i = signature' ++ "#" ++ toString j) :
    signature = signature' ∧ i = j := by
  have hdigits (i : Nat) : '#' ∉ Nat.toDigits 10 i := fun hmem =>
    absurd (Nat.isDigit_of_mem_toDigits (by decide) (by decide) hmem) (by decide)
  have hlist : signature.toList ++ '#' :: Nat.toDigits 10 i =
      signature'.toList ++ '#' :: Nat.toDigits 10 j := by
    simpa [Nat.toString_eq_repr] using congrArg String.toList h
  obtain ⟨hsignature, hnumber⟩ := List.cut_injective (hdigits i) (hdigits j) hlist
  exact ⟨String.toList_injective hsignature, toDigits_injective hnumber⟩

/-- The slot of an identified callable tells its signature and its identity. -/
theorem Identity.placement_injective {name name' signature signature' : String} {i j : Identity}
    (h : ((Descriptor.callable name signature).placement (some i)).address =
      ((Descriptor.callable name' signature').placement (some j)).address) :
    signature = signature' ∧ i = j :=
  Identity.label_injective (congrArg Address.text h)

/-! ## Layers -/

namespace Descriptor

/-- Layers over a type, the outermost first, by their names. -/
def layered (layers : List String) (core : Descriptor) : Descriptor :=
  layers.foldr .element core

/-- Layers over a named type have the place of the type, however many there are. -/
theorem placement_layered (layers : List String) (n : String) (identity? : Option Identity) :
    ((Descriptor.named n).layered layers).placement identity? = ⟨⟨TypeName.dotted n⟩, true⟩ := by
  induction layers generalizing identity? with
  | nil => rfl
  | cons layer layers ih =>
    have hnext : ((Descriptor.named n).layered (layer :: layers)).placement identity? =
        ((Descriptor.named n).layered layers).placement none := by
      cases layers <;> rfl
    rw [hnext, ih]

/-- Whether a descriptor is a layer over another one. -/
def isLayer : Descriptor → Bool
  | element _ _ => true
  | _ => false

/-- Every descriptor is a number of layers over one that is no layer. -/
theorem exists_layered (d : Descriptor) :
    ∃ layers core, core.isLayer = false ∧ d = layered layers core := by
  induction d with
  | element name inner ih =>
    obtain ⟨layers, core, hcore, rfl⟩ := ih
    exact ⟨name :: layers, core, hcore, rfl⟩
  | named name => exact ⟨[], .named name, rfl, rfl⟩
  | error name => exact ⟨[], .error name, rfl, rfl⟩
  | callable name signature => exact ⟨[], .callable name signature, rfl, rfl⟩
  | anonymous name => exact ⟨[], .anonymous name, rfl, rfl⟩

/-- Layers over anything but a named type have no slot, and their text is the name of the innermost
layer: it is the only one that looks at the core. -/
theorem placement_layered_of_ne {core : Descriptor} (hcore : core.isLayer = false)
    (hnamed : ∀ n, core ≠ .named n) (layers : List String) {innermost : String}
    (hlast : layers.getLast? = some innermost) (identity? : Option Identity) :
    (core.layered layers).placement identity? = ⟨⟨innermost⟩, false⟩ := by
  induction layers generalizing identity? with
  | nil => simp at hlast
  | cons layer layers ih =>
    cases layers with
    | nil =>
      obtain rfl : layer = innermost := by simpa using hlast
      cases core with
      | named n => exact absurd rfl (hnamed n)
      | element name inner => cases hcore
      | error name => rfl
      | callable name signature => rfl
      | anonymous name => rfl
    | cons next layers => exact ih (by simpa using hlast) none

/-- Without a layer, only a named type and an identified callable are addressable. -/
theorem placement_addressable_of_not_layer {core : Descriptor} (hcore : core.isLayer = false)
    (identity? : Option Identity) :
    (core.placement identity?).addressable = true ↔
      (∃ n, core = .named n) ∨ ∃ name signature i, core = .callable name signature ∧
        identity? = some i := by
  cases core with
  | named n => simp [placement]
  | element name inner => cases hcore
  | error name => simp [placement]
  | callable name signature => cases identity? <;> simp [placement]
  | anonymous name => simp [placement]

/-- Layers are seen through exactly when they end at a named type. Every descriptor is a number of
layers over a core. Over a named core they have the place of the name, however many there are and
whatever the identity; over another core they have no slot, and their text is the name of the
innermost layer. So addressable is what has a named core, and a callable that has an identity and
no layers; and the types with a slot are those with a named core. -/
theorem placement_layered_addressable_iff :
    (∀ d : Descriptor, ∃ layers core, core.isLayer = false ∧ d = layered layers core) ∧
    ∀ (layers : List String) (core : Descriptor) (identity? : Option Identity),
      core.isLayer = false →
      (∀ n, core = .named n →
        (core.layered layers).placement identity? = ⟨⟨TypeName.dotted n⟩, true⟩) ∧
      ((∀ n, core ≠ .named n) → ∀ innermost, layers.getLast? = some innermost →
        (core.layered layers).placement identity? = ⟨⟨innermost⟩, false⟩) ∧
      (((core.layered layers).placement identity?).addressable = true ↔
        (∃ n, core = .named n) ∨
          layers = [] ∧ ∃ name signature i, core = .callable name signature ∧
            identity? = some i) ∧
      ∀ (name : String) (address : Address),
        (ComponentType.mk name (core.layered layers)).slot? = some address ↔
          ∃ n, core = .named n ∧ address = ⟨TypeName.dotted n⟩ := by
  refine ⟨exists_layered, fun layers core identity? hcore => ?_⟩
  by_cases hnamed : ∃ n, core = .named n
  case pos =>
    obtain ⟨n, rfl⟩ := hnamed
    simp [placement_layered, ComponentType.slot?, eq_comm]
  case neg =>
    have hne : ∀ n, core ≠ .named n := fun n hn => hnamed ⟨n, hn⟩
    have hflag (identity? : Option Identity) :
        ((core.layered layers).placement identity?).addressable = true ↔
          layers = [] ∧ ∃ name signature i, core = .callable name signature ∧
            identity? = some i := by
      cases hlast : layers.getLast? with
      | none =>
        obtain rfl := List.getLast?_eq_none_iff.mp hlast
        simpa [hnamed, layered] using placement_addressable_of_not_layer hcore identity?
      | some innermost =>
        have hlayers : layers ≠ [] := fun h => by simp [h] at hlast
        simp [placement_layered_of_ne hcore hne layers hlast identity?, hlayers]
    refine ⟨fun n hn => absurd hn (hne n), fun _ innermost hlast =>
      placement_layered_of_ne hcore hne layers hlast identity?, by simp [hflag, hne], ?_⟩
    intro name address
    have hnone : ¬ ((core.layered layers).placement none).addressable = true := by simp [hflag]
    simp [ComponentType.slot?, hnone, hne]

/-- A shared array of a named type has the place of the type, whereas a shared array of callables has
the text of the array and no slot, also with an identity at hand. -/
theorem shared_array_placement :
    (layered ["alloc::sync::Arc<[app::A; 2]>", "[app::A; 2]"] (.named "app::A")).placement (some 3) =
        ⟨⟨"app.A"⟩, true⟩ ∧
      (layered ["alloc::sync::Arc<[fn(u8); 2]>", "[fn(u8); 2]"]
        (.callable "fn(u8)" "fn(u8)")).placement (some 3) = ⟨⟨"[fn(u8); 2]"⟩, false⟩ := by
  obtain ⟨-, htower⟩ := placement_layered_addressable_iff
  obtain ⟨hnamed, -⟩ := htower ["alloc::sync::Arc<[app::A; 2]>", "[app::A; 2]"] (.named "app::A")
    (some 3) rfl
  obtain ⟨-, hother, -⟩ := htower ["alloc::sync::Arc<[fn(u8); 2]>", "[fn(u8); 2]"]
    (.callable "fn(u8)" "fn(u8)") (some 3) rfl
  have hdotted : TypeName.dotted "app::A" = "app.A" := by decide
  exact ⟨hdotted ▸ hnamed "app::A" rfl, hother (fun n => by simp) _ rfl⟩

/-- An address with a serial number is not that of a type whose name holds no `#`. -/
theorem layered_ne_label {n : String} (hn : '#' ∉ n.toList) (layers : List String)
    (identity? : Option Identity) (signature : String) (i : Identity) :
    (((Descriptor.named n).layered layers).placement identity?).address ≠
      ⟨signature ++ "#" ++ toString i⟩ := by
  intro h
  rw [placement_layered] at h
  have hlabel : TypeName.dotted n = signature ++ "#" ++ toString i := congrArg Address.text h
  refine hn (TypeName.mem_of_mem_dotted (by decide) ?_)
  rw [hlabel]
  simp

/-- Different dependencies have different addresses. Two types declared under names without dots,
neither of which lists the bounds of an object, have different ones; a callable shares the place
that its identity gives it with no callable of another signature or of another identity, so every
constructor has a slot of its own; and no type has the place of a callable, unless a `#` occurs in
its name. -/
theorem addresses_distinct :
    (∀ n n' : String, '.' ∉ n.toList → '.' ∉ n'.toList → ¬ "dyn ".toList <+: n.toList →
      ¬ "dyn ".toList <+: n'.toList → TypeName.dotted n = TypeName.dotted n' → n = n') ∧
    (∀ (name name' signature signature' : String) (i j : Identity),
      ((callable name signature).placement (some i)).address =
        ((callable name' signature').placement (some j)).address →
      signature = signature' ∧ i = j) ∧
    (∀ c c' : Constructor, c.identity ≠ c'.identity → c.address ≠ c'.address) ∧
    (∀ (n : String) (layers : List String) (identity? : Option Identity)
      (name signature : String) (i : Identity), '#' ∉ n.toList →
      (((named n).layered layers).placement identity?).address ≠
        ((callable name signature).placement (some i)).address) := by
  refine ⟨fun n n' => TypeName.dotted_injective, fun name name' signature signature' i j =>
    Identity.placement_injective, fun c c' hidentity haddress => ?_,
    fun n layers identity? name signature i hn => layered_ne_label hn layers identity? signature i⟩
  exact hidentity (Identity.placement_injective haddress).2

/-- Names that end alike, callables whose labels differ only in where the serial number begins, and
a shared handle beside a callable that is described in the same words. -/
theorem lookalikes_distinct :
    TypeName.dotted "app::A" ≠ TypeName.dotted "A" ∧
      ((callable "make" "fn()").placement (some 12)).address ≠
        ((callable "make" "fn()#1").placement (some 2)).address ∧
      (((named "app::A").layered ["alloc::sync::Arc<app::A>"]).placement (some 7)).address ≠
        ((callable "app::A" "app.A").placement (some 7)).address := by
  obtain ⟨hnamed, hcallable, -, hlayered⟩ := addresses_distinct
  refine ⟨fun h => ?_, fun h => ?_, hlayered _ _ _ _ _ _ (by decide)⟩
  · exact absurd (hnamed _ _ (by decide) (by decide) (by decide) (by decide) h) (by decide)
  · exact absurd (hcallable _ _ _ _ _ _ h).1 (by decide)

end Descriptor

end Wiring
