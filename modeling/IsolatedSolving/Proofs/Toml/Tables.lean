import IsolatedSolving.Toml.Document

/-! Lines about other keys.

A line changes what stands under one key of the whole table, and how depends on nothing but what stands there
(`Building.add_atKey`). So entries with keys of one's own may be mixed with lines about other keys: if those
lines make a valid file without them, they do so with them, and the entries are found in it (`Mixed.exists_get?`). -/
namespace IsolatedSolving.Toml

namespace Entries

/-! ### What stands under one key -/

/-- The entries with a value under a key, which may be in use already. -/
def put (key : String) (v : Value) (es : Entries) : Entries :=
  if (es.get? key).isSome then replace key v es else es ++ [(key, v)]

/-- The entries with these keys. -/
def keep (p : String → Bool) (es : Entries) : Entries := es.filter fun e => p e.1

section Keep
variable {p : String → Bool} {key : String} {es fs : Entries}

theorem get?_cons (k : String) (v : Value) (es : Entries) :
    get? ((k, v) :: es) key = if key = k then some v else es.get? key := by
  simp only [get?, List.lookup_cons]
  split <;> simp_all

theorem get?_append_none (h : es.get? key = none) : get? (es ++ fs) key = fs.get? key := by
  rw [get?, List.lookup_append]
  exact congrArg (Option.or · _) h

theorem get?_keep (hp : p key = true) (es : Entries) : (keep p es).get? key = es.get? key := by
  induction es with
  | nil => rfl
  | cons e es ih =>
    obtain ⟨k, v⟩ := e
    rw [keep, List.filter_cons, get?_cons]
    by_cases hk : key = k
    · subst hk
      rw [if_pos hp, get?_cons, if_pos rfl, if_pos rfl]
    · rw [if_neg hk, ← ih]
      split
      · rw [get?_cons, if_neg hk, keep]
      · rw [keep]

@[simp] theorem keep_append (p : String → Bool) (es fs : Entries) : keep p (es ++ fs) = keep p es ++ keep p fs :=
  List.filter_append ..

theorem keep_replace (hp : p key = true) (v : Value) (es : Entries) :
    keep p (replace key v es) = replace key v (keep p es) := by
  induction es with
  | nil => rfl
  | cons e es ih =>
    obtain ⟨k, old⟩ := e
    rw [replace]
    by_cases hk : k = key
    · subst hk
      simp [keep, replace, hp]
    · by_cases hkept : p k = true
      · simp_all [keep, replace]
      · simp_all [keep]

theorem keep_replace_neg (hp : p key = false) (v : Value) (es : Entries) :
    keep p (replace key v es) = keep p es := by
  induction es with
  | nil => rfl
  | cons e es ih =>
    obtain ⟨k, old⟩ := e
    rw [replace]
    by_cases hk : k = key
    · subst hk
      simp [keep, hp]
    · simp_all [keep, List.filter_cons]

theorem keep_put (hp : p key = true) (v : Value) (es : Entries) : keep p (put key v es) = put key v (keep p es) := by
  rw [put, put, get?_keep hp]
  split
  · exact keep_replace hp v es
  · simp [keep, hp]

theorem keep_put_neg (hp : p key = false) (v : Value) (es : Entries) : keep p (put key v es) = keep p es := by
  rw [put]
  split
  · exact keep_replace_neg hp v es
  · simp [keep, hp]

end Keep

/-! ### Changes under one key -/

/-- Entries are changed under one key, in a way that depends on what stands there alone. -/
def AtKey (key : String) (op : Entries → Option Entries) : Prop :=
  ∀ old : Option Value, ∃ new : Option Value, ∀ es, es.get? key = old → op es = new.map (put key · es)

section AtKey
variable {p : String → Bool} {key last : String} {op : Entries → Option Entries} {es fs : Entries}

/-- A change under a key that is kept is the same change of what is kept. -/
theorem AtKey.keep (h : AtKey key op) (hp : p key = true) (es : Entries) :
    op (keep p es) = (op es).map (Entries.keep p) := by
  obtain ⟨new, hop⟩ := h (es.get? key)
  rw [hop es rfl, hop _ (get?_keep hp es), Option.map_map]
  congr 1
  funext v
  exact (keep_put hp v es).symm

/-- A change under another key changes nothing of what is kept. -/
theorem AtKey.keep_neg (h : AtKey key op) (hp : p key = false) (hes : op es = some fs) :
    Entries.keep p fs = Entries.keep p es := by
  obtain ⟨new, hop⟩ := h (es.get? key)
  rw [hop es rfl] at hes
  obtain ⟨v, -, rfl⟩ := Option.map_eq_some_iff.mp hes
  exact keep_put_neg hp v es

theorem map_put_none {α : Type} (h : es.get? key = none) (made : Option α) (f : α → Value) :
    made.map (fun x => es ++ [(key, f x)]) = (made.map f).map (put key · es) := by
  simp only [put, h, Option.map_map]
  rfl

theorem map_put_some {α : Type} {old : Value} (h : es.get? key = some old) (made : Option α) (f : α → Value) :
    made.map (fun x => replace key (f x) es) = (made.map f).map (put key · es) := by
  simp only [put, h, Option.map_map]
  rfl

theorem atKey_add (key : String) (v : Value) : AtKey key (add · key v) := by
  intro old
  cases old with
  | none => exact ⟨some v, fun es h => by simp [add, put, h]⟩
  | some old => exact ⟨none, fun es h => by simp [add, h]⟩

/-- A dotted key changes what stands under its first part. -/
theorem atKey_addDotted (v : Value) (last : String) (path : List String) :
    AtKey (path.headD last) (addDotted v last path) := by
  cases path with
  | nil => exact atKey_add last v
  | cons key more =>
    rw [List.headD_cons]
    intro old
    match old with
    | none =>
      refine ⟨(addDotted v last more []).map (.table .dotted), fun es h => ?_⟩
      rw [addDotted, h, ← map_put_none h]
    | some (.table .dotted sub) =>
      refine ⟨(addDotted v last more sub).map (.table .dotted), fun es h => ?_⟩
      rw [addDotted, h, ← map_put_some h]
    | some (.table .path sub) =>
      refine ⟨if more.isEmpty then none else (addDotted v last more sub).map (.table .path), fun es h => ?_⟩
      rw [addDotted, h]
      dsimp only
      split
      · rfl
      · rw [← map_put_some h]
    | some (.tables all) =>
      refine ⟨if more.isEmpty then none else (addDotted v last more (all.getLastD [])).map fun sub =>
        .tables (all.dropLast ++ [sub]), fun es h => ?_⟩
      rw [addDotted, h]
      dsimp only
      split
      · rfl
      · rw [← map_put_some h]
    | some (.string _) | some (.integer _) | some (.float _) | some (.boolean _) | some .moment
    | some (.array _) | some (.table .header _) | some (.table .inline _) =>
      exact ⟨none, fun es h => by rw [addDotted, h]; rfl⟩

theorem atKey_openTable (key : String) : AtKey key (openTable key) := by
  intro old
  match old with
  | none => exact ⟨some (.table .header []), fun es h => by simp [openTable, put, h]⟩
  | some (.table .path sub) => exact ⟨some (.table .header sub), fun es h => by simp [openTable, put, h]⟩
  | some (.string _) | some (.integer _) | some (.float _) | some (.boolean _) | some .moment
  | some (.array _) | some (.table .header _) | some (.table .dotted _) | some (.table .inline _)
  | some (.tables _) => exact ⟨none, fun es h => by rw [openTable, h]; rfl⟩

theorem atKey_openNext (key : String) : AtKey key (openNext key) := by
  intro old
  match old with
  | none => exact ⟨some (.tables [[]]), fun es h => by simp [openNext, put, h]⟩
  | some (.tables all) => exact ⟨some (.tables (all ++ [[]])), fun es h => by simp [openNext, put, h]⟩
  | some (.string _) | some (.integer _) | some (.float _) | some (.boolean _) | some .moment
  | some (.array _) | some (.table ..) => exact ⟨none, fun es h => by rw [openNext, h]; rfl⟩

/-- What is done at the end of a path is done under its first part. -/
theorem atKey_alter (h : AtKey last op) (path : List String) : AtKey (path.headD last) (alter op path) := by
  cases path with
  | nil => exact h
  | cons key more =>
    rw [List.headD_cons]
    intro old
    match old with
    | none =>
      refine ⟨(alter op more []).map (.table .path), fun es hes => ?_⟩
      rw [alter, hes, ← map_put_none hes]
    | some (.table .inline _) => exact ⟨none, fun es hes => by rw [alter, hes]; rfl⟩
    | some (.table .header sub) =>
      refine ⟨(alter op more sub).map (.table .header), fun es hes => ?_⟩
      rw [alter, hes, ← map_put_some hes]
    | some (.table .path sub) =>
      refine ⟨(alter op more sub).map (.table .path), fun es hes => ?_⟩
      rw [alter, hes, ← map_put_some hes]
    | some (.table .dotted sub) =>
      refine ⟨(alter op more sub).map (.table .dotted), fun es hes => ?_⟩
      rw [alter, hes, ← map_put_some hes]
    | some (.tables all) =>
      refine ⟨(alter op more (all.getLastD [])).map fun sub => .tables (all.dropLast ++ [sub]), fun es hes => ?_⟩
      rw [alter, hes, ← map_put_some hes]
    | some (.string _) | some (.integer _) | some (.float _) | some (.boolean _) | some .moment
    | some (.array _) => exact ⟨none, fun es hes => by rw [alter, hes]; rfl⟩

end AtKey

end Entries

/-! ### Lines -/

/-- The key of the whole table that a line is about, under the header in force. -/
def Line.topKey (header : List String) : Line → String
  | .entry path _ => header.headD (path.headD "")
  | .table path | .next path => path.headD ""

/-- The header in force behind a line. -/
def Line.header (header : List String) : Line → List String
  | .entry .. => header
  | .table path | .next path => path

theorem headD_dropLast (path : List String) : path.dropLast.headD (path.getLastD "") = path.headD "" := by
  match path with
  | [] => rfl
  | [_] => rfl
  | _ :: _ :: _ => rfl

/-- A line changes what stands under its key. -/
theorem Building.add_atKey (header : List String) (l : Line) :
    ∃ op, Entries.AtKey (l.topKey header) op ∧
      ∀ root, Building.add ⟨root, header⟩ l = (op root).map (⟨·, l.header header⟩) := by
  cases l with
  | entry path v =>
    have hentry : Entries.AtKey (path.headD "") (addEntry · path v) :=
      headD_dropLast path ▸ Entries.atKey_addDotted v (path.getLastD "") path.dropLast
    exact ⟨_, Entries.atKey_alter hentry header, fun _ => rfl⟩
  | table path =>
    have htable := Entries.atKey_alter (Entries.atKey_openTable (path.getLastD "")) path.dropLast
    rw [headD_dropLast] at htable
    exact ⟨_, htable, fun _ => rfl⟩
  | next path =>
    have hnext := Entries.atKey_alter (Entries.atKey_openNext (path.getLastD "")) path.dropLast
    rw [headD_dropLast] at hnext
    exact ⟨_, hnext, fun _ => rfl⟩

/-! ### Lines of one's own among others -/

/-- Behind a header, lines are entries with keys of one's own, which stand before all headers, and lines about
other keys. -/
inductive Mixed (own : String → Bool) : List String → List Line → Entries → List Line → Prop where
  | nil (header : List String) : Mixed own header [] [] []
  | own {key : String} {v : Value} {ls : List Line} {es : Entries} {others : List Line}
    (hkey : own key = true) (hmore : Mixed own [] ls es others) :
    Mixed own [] (.entry [key] v :: ls) ((key, v) :: es) others
  | other {header : List String} {l : Line} {ls : List Line} {es : Entries} {others : List Line}
    (hkey : own (l.topKey header) = false) (hmore : Mixed own (l.header header) ls es others) :
    Mixed own header (l :: ls) es (l :: others)

theorem Mixed.own_key {own : String → Bool} {header : List String} {ls others : List Line} {es : Entries}
    (h : Mixed own header ls es others) : ∀ e ∈ es, own e.1 = true := by
  induction h with
  | nil header => nofun
  | own hkey _ ih => exact List.forall_mem_cons.mpr ⟨hkey, ih⟩
  | other _ _ ih => exact ih

/-- If the lines about other keys make a file, all lines make one that holds the entries of one's own. -/
theorem Mixed.exists_foldlM {own : String → Bool} {header : List String} {ls others : List Line} {es : Entries}
    (h : Mixed own header ls es others) (hnodup : (es.map (·.1)).Nodup) {root : Entries}
    (hnew : ∀ e ∈ es, root.get? e.1 = none) {b : Building}
    (hothers : others.foldlM Building.add ⟨root.keep (!own ·), header⟩ = some b) :
    ∃ b', ls.foldlM Building.add ⟨root, header⟩ = some b' ∧ b'.root.keep own = root.keep own ++ es := by
  induction h generalizing root with
  | nil header => exact ⟨_, rfl, (List.append_nil _).symm⟩
  | @own key v ls es others hkey hmore ih =>
    obtain ⟨hfirst, hnodup⟩ := List.nodup_cons.mp hnodup
    have hfree : root.get? key = none := hnew _ List.mem_cons_self
    have hadd : Building.add ⟨root, []⟩ (.entry [key] v) = some ⟨root ++ [(key, v)], []⟩ := by
      simp [Building.add, addEntry, Entries.alter, Entries.addDotted, Entries.add, hfree]
    have hnew' (e) (he : e ∈ es) : Entries.get? (root ++ [(key, v)]) e.1 = none := by
      have hne : e.1 ≠ key := fun heq => hfirst (heq ▸ List.mem_map_of_mem (f := (·.1)) he)
      rw [Entries.get?_append_none (hnew e (List.mem_cons_of_mem _ he)), Entries.get?_cons, if_neg hne]
      rfl
    have hrest : Entries.keep (!own ·) (root ++ [(key, v)]) = root.keep (!own ·) := by
      simp [Entries.keep, hkey]
    obtain ⟨b', hb', hkept⟩ := ih hnodup hnew' (hrest ▸ hothers)
    refine ⟨b', by rw [List.foldlM_cons, hadd]; exact hb', ?_⟩
    rw [hkept, Entries.keep_append]
    simp [Entries.keep, hkey]
  | @other header l ls es others hkey hmore ih =>
    obtain ⟨op, hop, hadd⟩ := Building.add_atKey header l
    rw [List.foldlM_cons, hadd, hop.keep (by rw [hkey]; rfl)] at hothers
    cases hroot : op root with
    | none =>
      rw [hroot] at hothers
      cases hothers
    | some root' =>
      rw [hroot] at hothers
      have hkept : root'.keep own = root.keep own := hop.keep_neg hkey hroot
      have hnew' (e) (he : e ∈ es) : root'.get? e.1 = none := by
        rw [← Entries.get?_keep (hmore.own_key e he), hkept, Entries.get?_keep (hmore.own_key e he)]
        exact hnew e he
      obtain ⟨b', hb', hkept'⟩ := ih hnodup hnew' hothers
      refine ⟨b', by rw [List.foldlM_cons, hadd, hroot]; exact hb', ?_⟩
      rw [hkept', hkept]

/-- In a file of such lines the entries of one's own are found. -/
theorem Mixed.exists_get? {own : String → Bool} {ls others : List Line} {es : Entries}
    (h : Mixed own [] ls es others) (hnodup : (es.map (·.1)).Nodup)
    (hothers : (others.foldlM Building.add ⟨[], []⟩).isSome) :
    ∃ b, ls.foldlM Building.add ⟨[], []⟩ = some b ∧
      ∀ key, own key = true → b.root.get? key = es.get? key := by
  obtain ⟨b, hb⟩ := Option.isSome_iff_exists.mp hothers
  have hnew : ∀ e ∈ es, Entries.get? [] e.1 = none := fun _ _ => rfl
  obtain ⟨b', hb', hkept⟩ := h.exists_foldlM hnodup hnew hb
  refine ⟨b', hb', fun key hkey => ?_⟩
  rw [← Entries.get?_keep hkey, hkept]
  rfl

end IsolatedSolving.Toml
