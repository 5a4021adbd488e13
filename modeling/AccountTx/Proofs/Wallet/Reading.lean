import AccountTx.Proofs.Json.Names
import AccountTx.Proofs.Json.Spelling
import AccountTx.Proofs.Results
import AccountTx.Proofs.SlotMap.Insertion
import AccountTx.Wallet.Export

/-!
Which documents are exports, and of what. An export is described by what stands at each place of the
document; where no name is repeated and no record is written as an array, it is what is read.
-/

namespace AccountTx.Wallet.Export

open Json

/-! ### The documents of exports -/

/-- What is asked of the spelling of an export, of its indices and of the names in its records. -/
structure Rules where
  index : Spelling → UInt8 → Prop
  record : Document → Prop

/-- An index is spelled as its decimal, without escapes, and the names all stand for texts. -/
def Rules.strict : Rules where
  index s k := s = (toString k).toList
  record d := hasTexts d = true

/-- Spellings of the same text are the same, and names that are not asked for are ignored. -/
def Rules.lax : Rules where
  index s k := s.text? = some (toString k)
  record _ := True

section

variable (rules : Rules)

/-- The record of a secret key. -/
inductive WritesSecret : Document → String → Prop where
  | intro {d : Document} {s : Spelling} {text : String} : rules.record d →
      .string s ∈ named "signKey" d → s.text? = some text → WritesSecret d text

section

variable {α : Type} (writes : Document → α → Prop)

/-- An object that has a value for each of some indices. -/
inductive WritesMap : Document → IndexMap α → Prop where
  | intro {members : List (Spelling × Document)} {m : IndexMap α} :
      (∀ x ∈ members, ∃ k v, rules.index x.1 k ∧ writes x.2 v ∧ m.get? k = some v) →
      (∀ k v, m.get? k = some v → ∃ x ∈ members, rules.index x.1 k ∧ writes x.2 v) →
      WritesMap (.object members) m

/-- The record of a credential with its keys, or of an account with its credentials. -/
inductive WritesKeys : Document → IndexMap α → Prop where
  | intro {d x : Document} {m : IndexMap α} : rules.record d → x ∈ named "keys" d →
      WritesMap rules writes x m → WritesKeys d m

end

/-- The record of an account, with its keys and its address. -/
inductive Writes : Document → Export → Prop where
  | intro {d x : Document} {s : Spelling} {e : Export} : rules.record d →
      x ∈ named "accountKeys" d →
      WritesKeys rules (WritesKeys rules (WritesSecret rules)) x e.keys →
      .string s ∈ named "address" d → s.text? = some e.address → Writes d e

end

/-! ### Records -/

theorem unique?_eq_some_iff {name : String} {members : List (String × Document)} {x : Document} :
    unique? name members = some x ↔ (members.filter fun m => m.1 == name).map (·.2) = [x] := by
  rw [unique?]
  split
  next d heq => simp [heq]
  next hne =>
    refine iff_of_false nofun fun hmap => ?_
    obtain ⟨m, hm, rfl⟩ := List.map_eq_singleton_iff.mp hmap
    exact hne m.1 m.2 hm

/-- The members by the texts of their names have the same values. -/
theorem map_filter_eq_named {members : List (Spelling × Document)}
    {texts : List (String × Document)} (name : String)
    (h : List.Forall₂ (fun m t => (m.1.text?.map fun n => (n, m.2)) = some t) members texts) :
    (texts.filter fun t => t.1 == name).map (·.2) = named name (.object members) := by
  rw [named]
  induction h with
  | nil => rfl
  | cons hfirst _ ih =>
      obtain ⟨text, htext, rfl⟩ := Option.map_eq_some_iff.mp hfirst
      rw [List.filter_cons, List.filter_cons, htext]
      by_cases heq : text = name
      · simp [heq, ih]
      · simp [heq, ih]

theorem hasTexts_iff {members : List (Spelling × Document)} :
    hasTexts (.object members) = true ↔
      ∃ texts, List.Forall₂ (fun m t => (m.1.text?.map fun n => (n, m.2)) = some t) members
        texts := by
  rw [exists_forall₂_iff, hasTexts, List.all_eq_true]
  simp [Option.isSome_iff_exists]

/-- The parts of an object whose names are not repeated are the values of the names. -/
theorem parts?_eq_some_iff {names : List String} {d : Document} {xs : List Document}
    (hobject : isNoArray d = true) (hdistinct : isDistinct d = true) :
    parts? names d = some xs ↔
      hasTexts d = true ∧ List.Forall₂ (fun name x => x ∈ named name d) names xs := by
  cases d with
  | array items => cases hobject
  | object members =>
      simp only [parts?, Option.bind_eq_bind, Option.bind_eq_some_iff, mapM_eq_some_iff,
        hasTexts_iff, unique?_eq_some_iff]
      constructor
      · rintro ⟨texts, htexts, hnames⟩
        refine ⟨⟨texts, htexts⟩, hnames.imp fun name x heq => ?_⟩
        rwa [map_filter_eq_named name htexts, named_eq_singleton_iff hdistinct] at heq
      · rintro ⟨⟨texts, htexts⟩, hnames⟩
        refine ⟨texts, htexts, hnames.imp fun name x hx => ?_⟩
        rwa [map_filter_eq_named name htexts, named_eq_singleton_iff hdistinct]
  | _ => simp [parts?, hasTexts]

theorem part?_eq_some_iff {name : String} {d x : Document} (hobject : isNoArray d = true)
    (hdistinct : isDistinct d = true) :
    part? name d = some x ↔ hasTexts d = true ∧ x ∈ named name d := by
  rw [part?, Option.bind_eq_some_iff]
  simp only [parts?_eq_some_iff hobject hdistinct]
  constructor
  · rintro ⟨xs, ⟨htexts, hxs⟩, hhead⟩
    cases hxs with
    | cons hx hnil =>
        cases hhead
        exact ⟨htexts, hx⟩
  · rintro ⟨htexts, hx⟩
    exact ⟨[x], ⟨htexts, .cons hx .nil⟩, rfl⟩

/-! ### Maps -/

section

variable {α : Type} {read? : Document → Option α} {members : List (Spelling × Document)}
  {es : List (UInt8 × α)} {m : IndexMap α}

/-- A member of an object and the entry that it makes in a map. -/
def Makes (read? : Document → Option α) (x : Spelling × Document) (e : UInt8 × α) : Prop :=
  Rules.strict.index x.1 e.1 ∧ read? x.2 = some e.2

theorem Makes.unique {x : Spelling × Document} {e e' : UInt8 × α} (h : Makes read? x e)
    (h' : Makes read? x e') : e = e' := by
  have hkey : (toString e.1).toList = (toString e'.1).toList := h.1.symm.trans h'.1
  have hvalue : some e.2 = some e'.2 := h.2.symm.trans h'.2
  exact Prod.ext (toString_byte_inj (String.toList_inj.mp hkey)) (Option.some.inj hvalue)

theorem insertAll?_eq_some_iff {m' : IndexMap α} :
    insertAll? read? m members = some m' ↔
      ∃ es, List.Forall₂ (Makes read?) members es ∧ m' = IndexMap.insertAll es m := by
  induction members generalizing m with
  | nil => simp [insertAll?, IndexMap.insertAll, eq_comm]
  | cons x members ih =>
      obtain ⟨key, d⟩ := x
      simp only [insertAll?, Option.bind_eq_bind, Option.bind_eq_some_iff, index?_eq_some_iff, ih]
      constructor
      · rintro ⟨k, hkey, v, hread, es, hes, rfl⟩
        exact ⟨(k, v) :: es, .cons ⟨hkey, hread⟩ hes, rfl⟩
      · rintro ⟨es, hes, rfl⟩
        cases hes with
        | cons he hes => exact ⟨_, he.1, _, he.2, _, hes, rfl⟩

theorem texts_of_makes (h : List.Forall₂ (Makes read?) members es) :
    (members.filterMap fun x => x.1.text?) = (es.map (·.1)).map toString := by
  induction h with
  | nil => rfl
  | cons he _ ih =>
      rw [List.filterMap_cons, he.1, Spelling.text?_toString, ih]
      rfl

/-- A map whose names are not repeated has what each of them has. -/
theorem indexed?_eq_some_iff {d : Document} (hdistinct : isDistinct d = true) :
    indexed? read? d = some m ↔ WritesMap .strict (fun x v => read? x = some v) d m := by
  cases d with
  | object members =>
      have hget {es : List (UInt8 × α)} (hes : List.Forall₂ (Makes read?) members es)
          (k : UInt8) (v : α) : (IndexMap.insertAll es .empty).get? k = some v ↔
            ∃ x ∈ members, Rules.strict.index x.1 k ∧ read? x.2 = some v := by
        have hnodup := (isDistinct_object.mp hdistinct).1
        rw [texts_of_makes hes] at hnodup
        rw [IndexMap.get?_insertAll_eq_some_iff hnodup.of_map]
        exact mem_iff_of_forall₂ (r := Makes read?) (fun _ _ _ => Makes.unique) hes
      rw [indexed?, insertAll?_eq_some_iff]
      constructor
      · rintro ⟨es, hes, rfl⟩
        refine .intro (fun x hx => ?_) fun k v => (hget hes k v).mp
        obtain ⟨e, hkey, hread⟩ := exists_forall₂_iff.mp ⟨es, hes⟩ x hx
        exact ⟨e.1, e.2, hkey, hread, (hget hes _ _).mpr ⟨x, hx, hkey, hread⟩⟩
      · rintro ⟨hall, hm⟩
        have hentry : ∀ x ∈ members, ∃ e, Makes read? x e := by
          intro x hx
          obtain ⟨k, v, hkey, hread, -⟩ := hall x hx
          exact ⟨(k, v), hkey, hread⟩
        obtain ⟨es, hes⟩ := exists_forall₂_iff.mpr hentry
        refine ⟨es, hes, IndexMap.ext_get? fun k => Option.ext fun v => ?_⟩
        rw [hget hes]
        constructor
        · exact hm k v
        · rintro ⟨x, hx, hmakes⟩
          obtain ⟨k', v', hkey, hread, hv'⟩ := hall x hx
          have hsame : (k, v) = (k', v') := Makes.unique hmakes ⟨hkey, hread⟩
          cases hsame
          exact hv'
  | _ =>
      refine iff_of_false nofun ?_
      rintro ⟨⟩

theorem WritesMap.congr {rules : Rules} {writes writes' : Document → α → Prop}
    {d : Document} (h : ∀ x ∈ children d, ∀ v, writes x v ↔ writes' x v)
    (hwrites : WritesMap rules writes d m) : WritesMap rules writes' d m := by
  obtain ⟨hall, hget⟩ := hwrites
  refine .intro (fun x hx => ?_) fun k v hv => ?_
  · obtain ⟨k, v, hkey, hvalue, hv⟩ := hall x hx
    exact ⟨k, v, hkey, (h x.2 (List.mem_map_of_mem hx) v).mp hvalue, hv⟩
  · obtain ⟨x, hx, hkey, hvalue⟩ := hget k v hv
    exact ⟨x, hx, hkey, (h x.2 (List.mem_map_of_mem hx) v).mp hvalue⟩

theorem WritesMap.single {rules : Rules} {writes : Document → α → Prop}
    {s : Spelling} {d : Document} {k : UInt8} {v : α} (hkey : rules.index s k)
    (hvalue : writes d v) :
    WritesMap rules writes (.object [(s, d)]) (IndexMap.empty.insert k v) := by
  refine .intro (fun x hx => ?_) fun k' v' hv' => ?_
  · rw [List.mem_singleton.mp hx]
    exact ⟨k, v, hkey, hvalue, by simp⟩
  · rw [IndexMap.get?_insert, IndexMap.get?_empty] at hv'
    split at hv'
    next heq =>
      cases hv'
      exact ⟨(s, d), List.mem_singleton_self _, heq ▸ hkey, hvalue⟩
    next => cases hv'

/-- What a map has depends on its members alone. -/
theorem writesMap_congr {rules : Rules} {writes writes' : Document → α → Prop}
    {d : Document} (h : ∀ x ∈ children d, ∀ v, writes x v ↔ writes' x v) :
    WritesMap rules writes d m ↔ WritesMap rules writes' d m :=
  ⟨.congr h, .congr fun x hx v => (h x hx v).symm⟩

end

/-! ### Exports -/

/-- The record is no array, and neither are those that it has at its indices. -/
def keysAsObjects (inner : Document → Bool) (d : Document) : Bool :=
  isNoArray d && (named "keys" d).all fun x => (children x).all inner

/-- No record of an export is written as an array. -/
def asObjects (d : Document) : Bool :=
  isNoArray d && (named "accountKeys" d).all (keysAsObjects (keysAsObjects isNoArray))

theorem text?_eq_some_iff {d : Document} {text : String} :
    text? d = some text ↔ ∃ s, d = .string s ∧ s.text? = some text := by
  cases d <;> simp [text?]

section

variable {d : Document} (hdistinct : isDistinct d = true)

include hdistinct

theorem secret?_eq_some_iff {text : String} (hobject : isNoArray d = true) :
    secret? d = some text ↔ WritesSecret .strict d text := by
  simp only [secret?, Option.bind_eq_some_iff,
    part?_eq_some_iff hobject hdistinct, text?_eq_some_iff]
  constructor
  · rintro ⟨_, ⟨htexts, hx⟩, s, rfl, htext⟩
    exact .intro htexts hx htext
  · rintro ⟨htexts, hx, htext⟩
    exact ⟨_, ⟨htexts, hx⟩, _, rfl, htext⟩

/-- A record of keys is read if what it has at its indices is. -/
theorem keyed?_eq_some_iff {α : Type} {read? : Document → Option α}
    {writes : Document → α → Prop} {inner : Document → Bool} {m : IndexMap α}
    (hobject : keysAsObjects inner d = true)
    (hread : ∀ y, isDistinct y = true → inner y = true → ∀ v, read? y = some v ↔ writes y v) :
    (part? "keys" d).bind (indexed? read?) = some m ↔ WritesKeys .strict writes d m := by
  rw [keysAsObjects, Bool.and_eq_true, List.all_eq_true] at hobject
  obtain ⟨hobject, hinner⟩ := hobject
  have hmap {x : Document} (hx : x ∈ named "keys" d) :
      indexed? read? x = some m ↔ WritesMap .strict writes x m := by
    have hx' := isDistinct_of_mem_named hdistinct hx
    rw [indexed?_eq_some_iff hx']
    refine writesMap_congr fun y hy v => ?_
    exact hread y (isDistinct_of_mem_children hx' hy) (List.all_eq_true.mp (hinner x hx) y hy) v
  simp only [Option.bind_eq_some_iff, part?_eq_some_iff hobject hdistinct]
  constructor
  · rintro ⟨x, ⟨htexts, hx⟩, hindexed⟩
    exact .intro htexts hx ((hmap hx).mp hindexed)
  · rintro ⟨htexts, hx, hwrites⟩
    exact ⟨_, ⟨htexts, hx⟩, (hmap hx).mpr hwrites⟩

theorem keys?_eq_some_iff {keys : SlotMap String}
    (hobject : keysAsObjects (keysAsObjects isNoArray) d = true) :
    keys? d = some keys ↔ WritesKeys .strict (WritesKeys .strict (WritesSecret .strict)) d keys :=
  keyed?_eq_some_iff hdistinct hobject fun _ hy hobject' _ =>
    keyed?_eq_some_iff hy hobject' fun _ hz hobject'' _ => secret?_eq_some_iff hz hobject''

theorem genesis?_eq_some_iff {e : Export} (hobject : asObjects d = true) :
    genesis? d = some e ↔ Writes .strict d e := by
  rw [asObjects, Bool.and_eq_true, List.all_eq_true] at hobject
  obtain ⟨hobject, hkeys⟩ := hobject
  have hread {x : Document} (hx : x ∈ named "accountKeys" d) (keys : SlotMap String) :
      keys? x = some keys ↔ WritesKeys .strict (WritesKeys .strict (WritesSecret .strict)) x keys :=
    keys?_eq_some_iff (isDistinct_of_mem_named hdistinct hx) (hkeys x hx)
  have hparts (xs : List Document) : parts? ["accountKeys", "address"] d = some xs ↔
      hasTexts d = true ∧
        List.Forall₂ (fun name x => x ∈ named name d) ["accountKeys", "address"] xs :=
    parts?_eq_some_iff hobject hdistinct
  rw [genesis?]
  constructor
  · intro h
    split at h
    next x y heq =>
      obtain ⟨htexts, hxs⟩ := (hparts _).mp heq
      obtain ⟨hx, hxs⟩ := List.forall₂_cons.mp hxs
      obtain ⟨hy, -⟩ := List.forall₂_cons.mp hxs
      simp only [Option.bind_eq_bind, Option.bind_eq_some_iff, text?_eq_some_iff] at h
      obtain ⟨keys, hkeys, address, ⟨s, rfl, haddress⟩, hexport⟩ := h
      cases hexport
      exact .intro htexts hx ((hread hx keys).mp hkeys) hy haddress
    next => cases h
  · rintro ⟨htexts, hx, hwrites, hs, htext⟩
    rw [(hparts _).mpr ⟨htexts, .cons hx (.cons hs .nil)⟩]
    simp only [(hread hx _).mpr hwrites, text?, htext]
    rfl

end

end AccountTx.Wallet.Export
