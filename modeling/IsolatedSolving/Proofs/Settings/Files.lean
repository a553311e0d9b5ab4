import IsolatedSolving.Proofs.Toml.Lines
import IsolatedSolving.Proofs.Toml.Strings
import IsolatedSolving.Proofs.Toml.Tables
import IsolatedSolving.Settings.File
import Mathlib.Data.List.Nodup

/-! Settings that are saved and loaded.

Every setting has a line of its own in a file (`writtenLines_eq`), and the line is read as the entry of that
setting (`readsAs_line`). A file may hold the lines of any settings in any order, among others that are about
unknown keys (`Mixture`): loading it gives these settings, and the standard ones for those that are missing
(`Mixture.load_fileText`). The file that is saved is such a file with all of them. -/
namespace IsolatedSolving.Settings

/-! ### The settings of a file one by one -/

inductive Field where
  | relativeOvertime
  | absoluteOvertime
  | baseName
  | trials
  | reportAllCrashes
  | workerPath
  | pollMilliseconds
deriving DecidableEq

namespace Field

/-- All settings, in the order in which they are written. -/
def all : List Field :=
  [relativeOvertime, absoluteOvertime, baseName, trials, reportAllCrashes, workerPath, pollMilliseconds]

def key : Field → String
  | relativeOvertime => "relative_overtime"
  | absoluteOvertime => "absolute_overtime_seconds"
  | baseName => "shm_base_name"
  | trials => "shm_name_trials"
  | reportAllCrashes => "throw_on_all_crashes"
  | workerPath => "worker_path"
  | pollMilliseconds => "poll_interval_ms"

/-- Whether a key is that of a setting. -/
def isKey (key : String) : Bool := all.any (·.key == key)

/-- The text of the value, if there is one. -/
def written (s : Settings) : Field → Option String
  | relativeOvertime => some (Toml.writtenFloat s.relativeOvertime)
  | absoluteOvertime => some (Toml.writtenFloat s.absoluteOvertime)
  | baseName => some (String.ofList (Toml.quoted s.baseName))
  | trials => some (toString s.trials.toNat)
  | reportAllCrashes => some (if s.reportAllCrashes then "true" else "false")
  | workerPath => s.workerPath.map fun path => String.ofList (Toml.quoted path)
  | pollMilliseconds => some (toString s.pollMilliseconds.toNat)

/-- The value in the table of a file, if there is one. -/
def value (s : Settings) : Field → Option Toml.Value
  | relativeOvertime => some (.float s.relativeOvertime)
  | absoluteOvertime => some (.float s.absoluteOvertime)
  | baseName => some (.string s.baseName)
  | trials => some (.integer s.trials.toNat)
  | reportAllCrashes => some (.boolean s.reportAllCrashes)
  | workerPath => s.workerPath.map .string
  | pollMilliseconds => some (.integer s.pollMilliseconds.toNat)

theorem key_injective {f g : Field} (h : f.key = g.key) : f = g := by
  cases f <;> cases g <;> first | rfl | exact absurd h (by decide)

theorem mem_all (f : Field) : f ∈ all := by
  cases f <;> decide

theorem isKey_key (f : Field) : isKey f.key = true :=
  List.any_eq_true.mpr ⟨f, f.mem_all, beq_self_eq_true _⟩

theorem isBare_of_mem_key {f : Field} : ∀ c ∈ f.key.toList, Toml.isBare c = true := by
  have hall : f.key.toList.all Toml.isBare = true := by
    cases f <;> decide
  exact List.all_eq_true.mp hall

theorem key_ne_nil (f : Field) : f.key.toList ≠ [] := by
  cases f <;> decide

end Field

/-- The line of a setting, if it has one. -/
def line? (s : Settings) (f : Field) : Option String := (f.written s).map (line f.key)

theorem writtenLines_eq (s : Settings) : s.writtenLines = Field.all.filterMap s.line? := by
  cases hpath : s.workerPath with
  | none => simp [writtenLines, Field.all, line?, Field.written, Field.key, hpath]
  | some path => simp [writtenLines, Field.all, line?, Field.written, Field.key, hpath]

/-! ### A line and its value -/

/-- The numbers of the settings can be written. -/
structure Writable (s : Settings) : Prop where
  relative : s.relativeOvertime.isNaN = false
  absolute : s.absoluteOvertime.isNaN = false
  poll : s.pollMilliseconds.toNat < 2 ^ 63

section Reading
variable {s : Settings}

theorem value_quoted (text : String) (rest : List Char) :
    Toml.value (Toml.nesting + 1) ((String.ofList (Toml.quoted text)).toList ++ '\n' :: rest) =
      some (.string text, '\n' :: rest) := by
  rw [String.toList_ofList, Toml.value_of_anyString _ (Toml.anyString_quoted text rest), String.ofList_toList]

/-- What is written for a setting is read as its value. -/
theorem value_written (hs : s.Writable) {f : Field} {text : String} (h : f.written s = some text) :
    ∃ v, f.value s = some v ∧
      ∀ rest, Toml.value (Toml.nesting + 1) (text.toList ++ '\n' :: rest) = some (v, '\n' :: rest) := by
  cases f with
  | relativeOvertime =>
    cases h
    exact ⟨_, rfl, fun rest => Toml.value_of_plainValue _ (Toml.plainValue_writtenFloat hs.relative)⟩
  | absoluteOvertime =>
    cases h
    exact ⟨_, rfl, fun rest => Toml.value_of_plainValue _ (Toml.plainValue_writtenFloat hs.absolute)⟩
  | baseName =>
    cases h
    exact ⟨_, rfl, value_quoted s.baseName⟩
  | trials =>
    cases h
    have hsmall : s.trials.toNat < 2 ^ 63 := Nat.lt_trans s.trials.toNat_lt (by decide)
    exact ⟨_, rfl, fun rest => Toml.value_of_plainValue _ (Toml.plainValue_toString hsmall)⟩
  | reportAllCrashes =>
    cases h
    refine ⟨_, rfl, fun rest => ?_⟩
    cases s.reportAllCrashes with
    | false => rfl
    | true => rfl
  | workerPath =>
    obtain ⟨path, hpath, rfl⟩ := Option.map_eq_some_iff.mp h
    exact ⟨.string path, congrArg (Option.map Toml.Value.string) hpath, value_quoted path⟩
  | pollMilliseconds =>
    cases h
    exact ⟨_, rfl, fun rest => Toml.value_of_plainValue _ (Toml.plainValue_toString hs.poll)⟩

/-- The line of a setting is the entry of its value. -/
theorem readsAs_line (hs : s.Writable) {f : Field} {text : String} (h : s.line? f = some text) :
    ∃ v, f.value s = some v ∧ Toml.ReadsAs text.toList [.entry [f.key] v] := by
  obtain ⟨written, hwritten, rfl⟩ := Option.map_eq_some_iff.mp h
  obtain ⟨v, hv, hvalue⟩ := value_written hs hwritten
  have hread := Toml.ReadsAs.of_entry f.key_ne_nil Field.isBare_of_mem_key hvalue
  have htext : (line f.key written).toList = f.key.toList ++ ' ' :: '=' :: ' ' :: written.toList ++ ['\n'] := by
    simp [line]
  rw [String.ofList_toList] at hread
  exact ⟨v, hv, htext ▸ hread⟩

end Reading

/-! ### Settings of which some are given -/

/-- The settings with only these taken, and the standard ones for the others. -/
def keeping (s : Settings) (fields : List Field) : Settings where
  relativeOvertime := if .relativeOvertime ∈ fields then s.relativeOvertime else standard.relativeOvertime
  absoluteOvertime := if .absoluteOvertime ∈ fields then s.absoluteOvertime else standard.absoluteOvertime
  baseName := if .baseName ∈ fields then s.baseName else standard.baseName
  trials := if .trials ∈ fields then s.trials else standard.trials
  reportAllCrashes := if .reportAllCrashes ∈ fields then s.reportAllCrashes else standard.reportAllCrashes
  workerPath := if .workerPath ∈ fields then s.workerPath else standard.workerPath
  pollMilliseconds := if .pollMilliseconds ∈ fields then s.pollMilliseconds else standard.pollMilliseconds

/-- A setting that is found is read, and a missing one is standard. -/
theorem valueOf?_eq {α : Type} {es : Toml.Entries} {key : String} {read : Toml.Value → Option α} {c : Prop}
    [Decidable c] {v : Toml.Value} {x standard : α} (hes : es.get? key = if c then some v else none)
    (hread : read v = some x) : valueOf? es key read standard = some (if c then x else standard) := by
  rw [valueOf?, hes]
  split
  · next hnone =>
    rw [if_neg (by rintro hc; rw [if_pos hc] at hnone; cases hnone)]
  · next w hsome =>
    by_cases hc : c
    · rw [if_pos hc] at hsome ⊢
      cases hsome
      exact hread
    · rw [if_neg hc] at hsome
      cases hsome

theorem count?_of_lt {n limit : Nat} (h : n < limit) : count? limit (.integer n) = some n := by
  rw [count?, if_pos (by simp [h])]
  rfl

/-- A table with the values of some settings and no others holds these settings. -/
theorem ofEntries_eq {s : Settings} {es : Toml.Entries} {fields : List Field}
    (hes : ∀ f : Field, es.get? f.key = if f ∈ fields then f.value s else none) :
    ofEntries es = some (s.keeping fields) := by
  have hrelative : valueOf? es "relative_overtime" number? standard.relativeOvertime =
      some (s.keeping fields).relativeOvertime := valueOf?_eq (hes .relativeOvertime) rfl
  have habsolute : valueOf? es "absolute_overtime_seconds" number? standard.absoluteOvertime =
      some (s.keeping fields).absoluteOvertime := valueOf?_eq (hes .absoluteOvertime) rfl
  have hname : valueOf? es "shm_base_name" string? standard.baseName = some (s.keeping fields).baseName :=
    valueOf?_eq (hes .baseName) rfl
  have htrials : valueOf? es "shm_name_trials" (fun v => (count? UInt32.size v).map UInt32.ofNat)
      standard.trials = some (s.keeping fields).trials := by
    refine valueOf?_eq (hes .trials) ?_
    rw [count?_of_lt s.trials.toNat_lt, Option.map_some, UInt32.ofNat_toNat]
  have hreport : valueOf? es "throw_on_all_crashes" boolean? standard.reportAllCrashes =
      some (s.keeping fields).reportAllCrashes := valueOf?_eq (hes .reportAllCrashes) rfl
  have hpath : valueOf? es "worker_path" (fun v => (string? v).map some) standard.workerPath =
      some (s.keeping fields).workerPath := by
    have hfound := hes .workerPath
    rw [keeping]
    cases hset : s.workerPath with
    | none =>
      rw [Field.value, hset, Option.map_none, ite_self] at hfound
      rw [valueOf?, show es.get? "worker_path" = none from hfound]
      simp [standard]
    | some path =>
      rw [Field.value, hset] at hfound
      exact valueOf?_eq hfound rfl
  have hpoll : valueOf? es "poll_interval_ms" (fun v => (count? UInt64.size v).map UInt64.ofNat)
      standard.pollMilliseconds = some (s.keeping fields).pollMilliseconds := by
    refine valueOf?_eq (hes .pollMilliseconds) ?_
    rw [count?_of_lt s.pollMilliseconds.toNat_lt, Option.map_some, UInt64.ofNat_toNat]
  simp only [ofEntries, hrelative, habsolute, hname, htrials, hreport, hpath, hpoll, bind, Option.bind_some]
  rfl

/-! ### Files -/

theorem load_text (text : String) : load (some text.toUTF8.data.toList) = parse text := by
  have hbytes : String.fromUTF8? ⟨text.toUTF8.data.toList.toArray⟩ = some text := by
    rw [String.fromUTF8?]
    split
    · rfl
    · next hinvalid => exact absurd text.isValidUTF8 hinvalid
  rw [load, hbytes]

/-- A line of a file: that of a setting, or another one with what is read on it. -/
inductive Piece where
  | setting (f : Field)
  | other (text : String) (line : Option Toml.Line)

namespace Piece

def text (s : Settings) : Piece → String
  | setting f => (s.line? f).getD ""
  | other text _ => text

def lines (s : Settings) : Piece → List Toml.Line
  | setting f => ((f.value s).map (.entry [f.key] ·)).toList
  | other _ line => line.toList

def field? : Piece → Option Field
  | setting f => some f
  | other .. => none

def isOther : Piece → Bool
  | setting _ => false
  | other .. => true

end Piece

/-- The text of a file of such lines. -/
def fileText (s : Settings) (pieces : List Piece) : String := String.join (pieces.map (·.text s))

/-- The settings in a file. -/
def chosen (pieces : List Piece) : List Field := pieces.filterMap Piece.field?

/-- With a header in force, or none, settings stand before the first one, and no other line is about the key of
one. -/
def Apart : List String → List Piece → Prop
  | _, [] => True
  | header, .setting _ :: more => header = [] ∧ Apart header more
  | header, .other _ none :: more => Apart header more
  | header, .other _ (some l) :: more =>
    Field.isKey (l.topKey header) = false ∧ Apart (l.header header) more

/-- A file has the lines of settings, none of them twice, among others. Each of those can be read alone, they are
about unknown keys, and without the settings they are a valid file. -/
structure Mixture (s : Settings) (pieces : List Piece) : Prop where
  once : (chosen pieces).Nodup
  read : ∀ text line, Piece.other text line ∈ pieces →
    Toml.Ends text.toList ∧ Toml.lines 2 text.toList = some line.toList
  apart : Apart [] pieces
  valid : (Toml.parse (s.fileText (pieces.filter Piece.isOther))).isSome

section Files
variable {s : Settings} {pieces : List Piece}

/-- The entries of these settings. -/
def entries (s : Settings) (fields : List Field) : Toml.Entries :=
  fields.filterMap fun f => (f.value s).map (f.key, ·)

theorem nodup_entries {fields : List Field} (h : fields.Nodup) : ((s.entries fields).map (·.1)).Nodup := by
  rw [entries, List.map_filterMap]
  refine h.filterMap fun f g key hf hg => ?_
  have hkey {f : Field} (hf : ((f.value s).map (f.key, ·)).map (·.1) = some key) : f.key = key := by
    rw [Option.map_map] at hf
    obtain ⟨_, _, heq⟩ := Option.map_eq_some_iff.mp hf
    exact heq
  exact Field.key_injective ((hkey hf).trans (hkey hg).symm)

theorem get?_entries (f : Field) (fields : List Field) :
    (s.entries fields).get? f.key = if f ∈ fields then f.value s else none := by
  induction fields with
  | nil => rfl
  | cons g fields ih =>
    by_cases hg : f = g
    · subst hg
      rw [if_pos List.mem_cons_self]
      cases hv : f.value s with
      | none =>
        rw [hv, ite_self] at ih
        simpa [entries, List.filterMap_cons, hv] using ih
      | some v =>
        rw [entries, List.filterMap_cons, hv]
        simp [Toml.Entries.get?_cons]
    · have hkey : f.key ≠ g.key := fun heq => hg (Field.key_injective heq)
      have hcons : (s.entries (g :: fields)).get? f.key = (s.entries fields).get? f.key := by
        rw [entries, List.filterMap_cons]
        cases g.value s with
        | none => rfl
        | some v => exact (Toml.Entries.get?_cons ..).trans (if_neg hkey)
      rw [hcons, ih]
      simp [hg]

theorem mixed_of_apart {header : List String} (h : Apart header pieces) :
    Toml.Mixed Field.isKey header (pieces.flatMap (·.lines s)) (s.entries (chosen pieces))
      ((pieces.filter Piece.isOther).flatMap (·.lines s)) := by
  induction pieces generalizing header with
  | nil => exact .nil header
  | cons piece pieces ih =>
    match piece with
    | .setting f =>
      obtain ⟨rfl, hmore⟩ := h
      have hchosen : chosen (.setting f :: pieces) = f :: chosen pieces := rfl
      rw [List.flatMap_cons, Piece.lines, hchosen, entries, List.filterMap_cons,
        List.filter_cons_of_neg (by simp [Piece.isOther])]
      cases f.value s with
      | none => exact ih hmore
      | some v => exact .own f.isKey_key (ih hmore)
    | .other _ none => exact ih h
    | .other _ (some l) =>
      obtain ⟨hl, hmore⟩ := h
      exact .other hl (ih hmore)

theorem line?_eq_none {f : Field} (h : s.line? f = none) : f.value s = none := by
  cases f with
  | workerPath =>
    have hpath : s.workerPath = none := by simpa [line?, Field.written] using h
    rw [Field.value, hpath, Option.map_none]
  | _ => cases h

theorem Mixture.readsAs (hs : s.Writable) (h : s.Mixture pieces) {piece : Piece} (hpiece : piece ∈ pieces) :
    Toml.ReadsAs (piece.text s).toList (piece.lines s) := by
  cases piece with
  | setting f =>
    rw [Piece.text, Piece.lines]
    cases hline : s.line? f with
    | none =>
      rw [line?_eq_none hline]
      exact Toml.readsAs_nil
    | some text =>
      obtain ⟨v, hv, hread⟩ := readsAs_line hs hline
      rw [hv]
      exact hread
  | other text line =>
    obtain ⟨hends, hread⟩ := h.read text line hpiece
    exact .of_line hends hread

theorem readsAs_fileText (h : ∀ piece ∈ pieces, Toml.ReadsAs (piece.text s).toList (piece.lines s)) :
    Toml.ReadsAs (s.fileText pieces).toList (pieces.flatMap (·.lines s)) := by
  rw [fileText, String.toList_join, List.flatMap_map]
  exact Toml.readsAs_flatMap h

/-- A file gives the settings it holds, and the standard ones for the others. -/
theorem Mixture.load_fileText (hs : s.Writable) (h : s.Mixture pieces) :
    load (some (s.fileText pieces).toUTF8.data.toList) = .ok (s.keeping (chosen pieces)) := by
  have hread := readsAs_fileText fun _ => h.readsAs hs
  have hothers : Toml.ReadsAs (s.fileText (pieces.filter Piece.isOther)).toList _ :=
    readsAs_fileText fun piece hpiece => h.readsAs hs (List.mem_of_mem_filter hpiece)
  have hvalid := h.valid
  rw [Toml.parse_of_readsAs hothers, Option.isSome_map] at hvalid
  obtain ⟨b, hb, hfound⟩ := (mixed_of_apart h.apart).exists_get? (nodup_entries h.once) hvalid
  have hentries : ofEntries b.root = some (s.keeping (chosen pieces)) := by
    refine ofEntries_eq fun f => ?_
    rw [hfound f.key f.isKey_key, get?_entries]
  rw [load_text, parse, Toml.parse_of_readsAs hread, hb, Option.map_some, Option.bind_some, hentries]

end Files

/-! ### The file that is saved -/

theorem keeping_all (s : Settings) : s.keeping Field.all = s := by
  simp [keeping, Field.mem_all]

theorem join_filterMap {α : Type} (g : α → Option String) (xs : List α) :
    String.join (xs.filterMap g) = String.join (xs.map fun x => (g x).getD "") := by
  refine String.toList_inj.mp ?_
  rw [String.toList_join, String.toList_join]
  induction xs with
  | nil => rfl
  | cons x xs ih =>
    rw [List.filterMap_cons, List.map_cons, List.flatMap_cons, ← ih]
    cases g x with
    | none => rfl
    | some text => rfl

theorem fileText_all (s : Settings) : s.fileText (Field.all.map .setting) = String.join s.writtenLines := by
  rw [writtenLines_eq, join_filterMap, fileText, List.map_map]
  rfl

theorem mixture_all (s : Settings) : s.Mixture (Field.all.map .setting) where
  once := by decide
  read := by simp
  apart := by simp [Field.all, Apart]
  valid := rfl

/-- **Settings that are saved are loaded again, and so are those of them that a file holds among unknown keys;
what cannot be written leaves the file as it is.** -/
theorem save_and_load (s : Settings) (file : Option (List UInt8)) :
    (s.Writable →
      (s.save file).1 = .ok () ∧ load (s.save file).2 = .ok s ∧
        ∀ pieces, s.Mixture pieces →
          load (some (s.fileText pieces).toUTF8.data.toList) = .ok (s.keeping (chosen pieces))) ∧
      (2 ^ 63 ≤ s.pollMilliseconds.toNat → ∃ message, s.save file = (.error (.config message), file)) := by
  refine ⟨fun hs => ?_, fun hpoll => ⟨"integer out of range", ?_⟩⟩
  · have hwrite : s.write = .ok (String.join s.writtenLines) := if_neg (Nat.not_le_of_gt hs.poll)
    have hload := s.mixture_all.load_fileText hs
    have hchosen : chosen (Field.all.map .setting) = Field.all := rfl
    rw [fileText_all, hchosen, keeping_all] at hload
    rw [save, hwrite]
    exact ⟨rfl, hload, fun pieces hpieces => hpieces.load_fileText hs⟩
  · have hwrite : s.write = .error (.config "integer out of range") := if_pos hpoll
    rw [save, hwrite]

/-- Settings with a negative zero, an infinity and texts that need every kind of quotes. -/
def awkward : Settings :=
  { standard with
    relativeOvertime := ⟨0x8000000000000000⟩
    absoluteOvertime := .infinity
    baseName := "it's \"\"\"\\ \x07\n"
    workerPath := some "/opt/\\worker"
    pollMilliseconds := 25 }

/-- Two settings among comments, unknown keys and a table that has a key of the same name. -/
def scattered : List Piece :=
  [.other "# notes\n" none, .setting .pollMilliseconds,
    .other "extra = [1,\n  2]\n" (some (.entry ["extra"] (.array [.integer 1, .integer 2]))),
    .setting .baseName, .other "[more]\r\n" (some (.table ["more"])),
    .other "worker_path = 'x'\n" (some (.entry ["worker_path"] (.string "x")))]

theorem save_and_load_awkward :
    load (awkward.save none).2 = .ok awkward ∧
      load (some (awkward.fileText scattered).toUTF8.data.toList) =
        .ok { standard with baseName := awkward.baseName, pollMilliseconds := 25 } ∧
      ∃ message, { awkward with pollMilliseconds := 0x8000000000000000 }.save (some [1]) =
        (.error (.config message), some [1]) := by
  have hs : awkward.Writable := ⟨rfl, rfl, by decide⟩
  have hmixture : awkward.Mixture scattered := by
    refine ⟨by decide, fun text line h => ?_, ?_, ?_⟩
    · simp only [scattered, List.mem_cons, Piece.other.injEq, reduceCtorEq, List.not_mem_nil, or_false,
        false_or] at h
      rcases h with ⟨rfl, rfl⟩ | ⟨rfl, rfl⟩ | ⟨rfl, rfl⟩ | ⟨rfl, rfl⟩
      · exact ⟨by decide, rfl⟩
      · exact ⟨by decide, rfl⟩
      · exact ⟨by decide, rfl⟩
      · exact ⟨by decide, rfl⟩
    · exact ⟨rfl, rfl, rfl, rfl, rfl, trivial⟩
    · decide +kernel
  obtain ⟨hsaved, -⟩ := save_and_load awkward none
  obtain ⟨-, hunsaved⟩ := save_and_load { awkward with pollMilliseconds := 0x8000000000000000 } (some [1])
  obtain ⟨-, hload, hscattered⟩ := hsaved hs
  exact ⟨hload, hscattered scattered hmixture, hunsaved (by decide)⟩

end IsolatedSolving.Settings
