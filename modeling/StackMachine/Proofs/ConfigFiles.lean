import StackMachine.Files.Store
import StackMachine.Proofs.TomlLines
import StackMachine.Proofs.TreeChanges

/-!
# Configuration files

A configuration file that has one plain line for each of some fields gives the default
configuration with exactly these fields replaced, whatever the order of the lines. A negative limit
makes the whole file invalid, and so does a line for a key that is no field.
-/

namespace StackMachine

open StackMachine.Toml (Scalar Assignment Shape Document isBare)

/-! ### Documents of plain lines -/

namespace Toml

/-- What a line adds to the table of the file. -/
def Assignment.root (a : Assignment) : String × Shape := (a.name, .value a.scalar.value)

namespace Document

variable {d : Document} {a : Assignment} {lines before : List Assignment}

/-- The document holds these lines and nothing else. -/
structure Holds (d : Document) (lines : List Assignment) : Prop where
  tables : d.tables = [lines.map Assignment.root]
  listed : d.keys = lines.map fun a => [a.name]

theorem holds_nil : Holds {} [] := ⟨rfl, rfl⟩

theorem Holds.roots (h : d.Holds lines) : d.roots = lines.map Assignment.root := by
  rw [Document.roots, h.tables, List.headD_cons]

theorem addContent_scalar (s : Scalar) (context : Key) (name : String) (isElement : Bool) :
    d.addContent context name isElement s.value = some (d, .value s.value) := by
  cases s <;> simp [Scalar.value, addContent]

theorem isArray_scalar (s : Scalar) : s.value.isArray = false := by
  cases s <;> rfl

/-- A line with a new name comes after the lines that are there. -/
theorem Holds.addEntry (h : d.Holds before) (new : a.name ∉ before.map Assignment.name) :
    ∃ e, d.addEntry [] (.assign [a.name] a.scalar.value) = some (e, .value a.scalar.value) ∧
      e.Holds (before ++ [a]) := by
  have absent : (before.map Assignment.root).lookup a.name = none := by
    rw [List.lookup_eq_none_iff]
    grind [Assignment.root]
  have kept : (before.map Assignment.root).filter (·.1 ≠ a.name) =
      before.map Assignment.root := by
    rw [List.filter_eq_self]
    grind [Assignment.root]
  have free : (d.list [a.name]).shape? 0 a.name = none := by
    simp [shape?, list, h.tables, absent]
  have added : d.addEntry [] (.assign [a.name] a.scalar.value) =
      some (((d.list [a.name]).put 0 a.name (.value a.scalar.value)).markArray [] a.name false,
        .value a.scalar.value) := by
    simp [Document.addEntry, openDotted, addContent_scalar, define, follow, free, isArray_scalar]
  refine ⟨_, added, ?_, ?_⟩
  · simp only [markArray, put, list, h.tables, List.modify_zero_cons, kept, List.map_append,
      List.map_cons, List.map_nil, Assignment.root]
  · have keys := h.listed
    simp only [Document.keys] at keys
    simp [markArray, put, list, Document.keys, keys]

/-- Lines with different names come one after the other. -/
theorem Holds.addStatements (h : d.Holds before)
    (distinct : ((before ++ lines).map Assignment.name).Nodup) :
    ∃ e, d.addStatements [] (lines.map Assignment.statement) = some e ∧
      e.Holds (before ++ lines) := by
  induction lines generalizing d before with
  | nil => exact ⟨d, rfl, by simpa using h⟩
  | cons a lines ih =>
    have new : a.name ∉ before.map Assignment.name := by
      grind [List.nodup_append]
    obtain ⟨e, added, holds⟩ := h.addEntry new
    rw [List.append_cons] at distinct ⊢
    obtain ⟨e', rest, holds⟩ := ih holds distinct
    refine ⟨e', ?_, holds⟩
    simp only [List.map_cons, Assignment.statement, Document.addStatements, added, rest]

/-- A file of plain lines with different names is a document that holds them. -/
theorem exists_holds_of_file (closed : Bool) (plain : ∀ a ∈ lines, a.Plain)
    (distinct : (lines.map Assignment.name).Nodup) :
    ∃ d, (parse? (file closed lines)).bind ofStatements? = some d ∧ d.Holds lines := by
  obtain ⟨d, added, holds⟩ : ∃ e, addStatements {} [] (lines.map Assignment.statement) = some e ∧
      e.Holds ([] ++ lines) := holds_nil.addStatements distinct
  refine ⟨d, ?_, holds⟩
  rw [parse?_file closed plain]
  exact added

end Document

end Toml

/-! ### Settings -/

namespace Config

/-- What a line of a configuration file says. -/
inductive Setting where
  | stepLimit (n : Int)
  | maxStack (n : Int)
  | saveMode (name : String)
  | strictAsm (b : Bool)
  | labels (b : Bool)
  | logLevel (name : String)
  deriving DecidableEq

/-- A name with its ASCII letters in lower case. -/
def lowered (name : String) : String := String.ofList (name.toList.map Char.toLower)

def modeNames : List String := ["append", "truncate"]

def levelNames : List String := ["debug", "info", "warn", "error", "dpanic", "panic", "fatal"]

namespace Setting

def field : Setting → Field
  | stepLimit _ => .stepLimit
  | maxStack _ => .maxStack
  | saveMode _ => .saveMode
  | strictAsm _ => .strictAsm
  | labels _ => .labels
  | logLevel _ => .logLevel

def scalar : Setting → Scalar
  | stepLimit n => .integer n
  | maxStack n => .integer n
  | saveMode name => .string name
  | strictAsm b => .boolean b
  | labels b => .boolean b
  | logLevel name => .string name

def line (s : Setting) : Assignment := { name := s.field.name, scalar := s.scalar }

def put (s : Setting) (c : Config) : Config :=
  match s with
  | stepLimit n => { c with stepLimit := n }
  | maxStack n => { c with maxStack := n }
  | saveMode name => { c with saveMode := name }
  | strictAsm b => { c with strictAsm := b }
  | labels b => { c with labels := b }
  | logLevel name => { c with logLevel := name }

/-- Limits fit 64 bits, with either sign, and names are known in any case. -/
def Shaped : Setting → Prop
  | stepLimit n | maxStack n => Int64.minValue.toInt ≤ n ∧ n ≤ Int64.maxValue.toInt
  | saveMode name => lowered name ∈ modeNames
  | strictAsm _ | labels _ => True
  | logLevel name => lowered name ∈ levelNames

instance : (s : Setting) → Decidable s.Shaped
  | stepLimit _ | maxStack _ => inferInstanceAs (Decidable (_ ∧ _))
  | saveMode _ | logLevel _ => inferInstanceAs (Decidable (_ ∈ _))
  | strictAsm _ | labels _ => inferInstanceAs (Decidable True)

def Negative : Setting → Prop
  | stepLimit n | maxStack n => n < 0
  | saveMode _ | strictAsm _ | labels _ | logLevel _ => False

instance : (s : Setting) → Decidable s.Negative
  | stepLimit _ | maxStack _ => inferInstanceAs (Decidable (_ < _))
  | saveMode _ | strictAsm _ | labels _ | logLevel _ => inferInstanceAs (Decidable False)

end Setting

variable {c : Config} {s : Setting} {settings before after : List Setting} {f : Field}
  {name : String} {closed : Bool}

def putAll (c : Config) (settings : List Setting) : Config :=
  settings.foldl (fun c s => s.put c) c

/-! ### Fields -/

/-- The value of a field as it would be written. -/
def Field.get (f : Field) (c : Config) : Scalar :=
  match f with
  | .stepLimit => .integer c.stepLimit
  | .maxStack => .integer c.maxStack
  | .saveMode => .string c.saveMode
  | .strictAsm => .boolean c.strictAsm
  | .labels => .boolean c.labels
  | .logLevel => .string c.logLevel

/-- A configuration has no other fields. -/
theorem eq_of_get {d : Config} (h : ∀ f : Field, f.get c = f.get d) : c = d := by
  cases c
  cases d
  have steps := h .stepLimit
  have stack := h .maxStack
  have mode := h .saveMode
  have strict := h .strictAsm
  have labels := h .labels
  have level := h .logLevel
  simp_all [Field.get]

theorem Setting.get_put (s : Setting) (c : Config) : s.field.get (s.put c) = s.scalar := by
  cases s <;> rfl

theorem Setting.get_put_of_ne (other : s.field ≠ f) : f.get (s.put c) = f.get c := by
  cases s <;> cases f <;> simp_all [Setting.field, Setting.put, Field.get]

theorem get_putAll_of_not_mem (h : f ∉ settings.map Setting.field) :
    f.get (c.putAll settings) = f.get c := by
  induction settings generalizing c with
  | nil => rfl
  | cons s settings ih =>
    simp only [List.map_cons, List.mem_cons, not_or] at h
    calc f.get (c.putAll (s :: settings))
      _ = f.get ((s.put c).putAll settings) := rfl
      _ = f.get (s.put c) := ih h.2
      _ = f.get c := Setting.get_put_of_ne (Ne.symm h.1)

/-- With one setting for each field, no setting undoes another. -/
theorem get_putAll_of_mem (distinct : (settings.map Setting.field).Nodup) (h : s ∈ settings) :
    s.field.get (c.putAll settings) = s.scalar := by
  induction settings generalizing c with
  | nil => cases h
  | cons first settings ih =>
    obtain ⟨new, distinct⟩ := List.nodup_cons.1 distinct
    obtain rfl | later := List.mem_cons.1 h
    · calc s.field.get (c.putAll (s :: settings))
        _ = s.field.get ((s.put c).putAll settings) := rfl
        _ = s.field.get (s.put c) := get_putAll_of_not_mem new
        _ = s.scalar := s.get_put c
    · exact ih distinct later

theorem Field.ofName?_name (f : Field) : Field.ofName? f.name = some f := by
  cases f <;> rfl

theorem Setting.set_scalar (s : Setting) (c : Config) :
    s.field.set s.scalar.value c = some (s.put c) := by
  cases s <;> rfl

theorem setAll_settings (c : Config) (settings : List Setting) (rest : Toml.Table) :
    c.setAll ((settings.map Setting.line).map Assignment.root ++ rest) =
      (c.putAll settings).setAll rest := by
  induction settings generalizing c with
  | nil => rfl
  | cons s settings ih =>
    simp only [List.map_cons, List.cons_append, Assignment.root, Setting.line, setAll,
      Field.ofName?_name, s.set_scalar]
    exact ih (s.put c)

/-! ### Names -/

theorem isAlpha_of_toLower {c : Char} (h : c.toLower.isAlpha = true) : c.isAlpha = true := by
  by_cases upper : c.isUpper = true
  · exact Bool.or_eq_true_iff.2 (.inl upper)
  · have outside : ¬ (c.val ≥ 'A'.val ∧ c.val ≤ 'Z'.val) := by
      intro range
      exact upper (decide_eq_true range)
    have same : c.toLower = c := dif_neg outside
    rwa [same] at h

theorem isAlpha_of_lowered_mem {names : List String}
    (letters : names.all (·.toList.all Char.isAlpha) = true) (h : lowered name ∈ names) :
    ∀ c ∈ name.toList, c.isAlpha = true := by
  intro c hc
  have known := List.all_eq_true.1 letters _ h
  refine isAlpha_of_toLower (List.all_eq_true.1 known _ ?_)
  simpa [lowered] using ⟨c, hc, rfl⟩

theorem isAlpha_of_mode (h : lowered name ∈ modeNames) : ∀ c ∈ name.toList, c.isAlpha = true :=
  isAlpha_of_lowered_mem rfl h

theorem isAlpha_of_level (h : lowered name ∈ levelNames) : ∀ c ∈ name.toList, c.isAlpha = true :=
  isAlpha_of_lowered_mem rfl h

/-- Beside the ASCII letters there are only characters past ASCII that have a lower case. -/
theorem lowerCase_of_isGraphic {c : Char} (h : Toml.isGraphic c = true) :
    lowerCase c = c.toLower ∧ foldCase c = c.toLower := by
  simp only [Toml.isGraphic, Bool.and_eq_true, decide_eq_true_eq] at h
  constructor
  · unfold lowerCase
    split <;> grind
  · unfold foldCase
    split <;> grind

theorem isGraphic_of_isAlpha {c : Char} (h : c.isAlpha = true) : Toml.isGraphic c = true :=
  Toml.isGraphic_of_isAlphanum (by simp [Char.isAlphanum, h])

theorem map_lowerCase (letters : ∀ c ∈ name.toList, c.isAlpha = true) :
    name.toList.map lowerCase = (lowered name).toList := by
  rw [lowered, String.toList_ofList]
  apply List.map_congr_left
  intro c hc
  exact (lowerCase_of_isGraphic (isGraphic_of_isAlpha (letters c hc))).1

theorem isBlank_of_isAlpha {c : Char} (h : c.isAlpha = true) :
    (Letter.char c).isBlank = false := by
  have graphic := isGraphic_of_isAlpha h
  have blank : c ≠ ' ' := Toml.ne_of_holds h rfl
  have code : c.toNat ≠ 0x20 := by
    intro same
    exact blank (Char.toNat_inj.1 same)
  simp only [Toml.isGraphic, Bool.and_eq_true, decide_eq_true_eq] at graphic
  simp [Letter.isBlank, isBlank]
  omega

/-- Only the lower case of a name of letters counts for the save mode. -/
theorem lower_trim_ofString (letters : ∀ c ∈ name.toList, c.isAlpha = true) :
    (Text.ofString name).trim.lower = Text.ofString (lowered name) := by
  have solid : ∀ l ∈ Text.ofString name, l.isBlank = false := by
    intro l hl
    obtain ⟨c, hc, rfl⟩ := List.mem_map.1 hl
    exact isBlank_of_isAlpha (letters c hc)
  have trimmed : (Text.ofString name).trim = Text.ofString name := by
    apply Text.trim_of_ends
    · intro l hl
      exact solid l (List.mem_of_head? hl)
    · intro l hl
      exact solid l (List.mem_of_getLast? hl)
  rw [trimmed, Text.ofString, Text.ofString, ← map_lowerCase letters]
  simp [Text.lower, Text.ofChars]

theorem isSome_mode (h : lowered name ∈ modeNames) :
    (SaveMode.ofName? (.ofString name)).isSome = true := by
  have known : ∀ n ∈ modeNames,
      Text.ofString n = Text.ofString "append" ∨ Text.ofString n = Text.ofString "truncate" := by
    decide
  simp only [SaveMode.ofName?, lower_trim_ofString (isAlpha_of_mode h)]
  grind

theorem isSome_level (h : lowered name ∈ levelNames) : (Level.ofName? name).isSome = true := by
  have known : ∀ n ∈ levelNames, (Level.all.find? (·.name = n)).isSome = true := by decide
  simp only [Level.ofName?, map_lowerCase (isAlpha_of_level h), String.ofList_toList]
  grind

theorem Field.bare_name (f : Field) :
    f.name.toList ≠ [] ∧ ∀ c ∈ f.name.toList, isBare c = true := by
  constructor
  · cases f <;> decide
  · apply List.all_eq_true.1
    cases f <;> rfl

theorem Setting.Shaped.plain (shaped : s.Shaped) : s.line.Plain := by
  obtain ⟨nonempty, bare⟩ := s.field.bare_name
  refine ⟨nonempty, bare, ?_⟩
  cases s with
  | stepLimit n => exact shaped
  | maxStack n => exact shaped
  | saveMode name => exact isAlpha_of_mode shaped
  | strictAsm b => trivial
  | labels b => trivial
  | logLevel name => exact isAlpha_of_level shaped

/-! ### Objections -/

theorem objection?_eq_none_iff : c.objection? = none ↔ 0 ≤ c.stepLimit ∧ 0 ≤ c.maxStack ∧
    (SaveMode.ofName? (.ofString c.saveMode)).isSome = true ∧ ∃ l, c.level = .ok l := by
  unfold objection?
  cases SaveMode.ofName? (.ofString c.saveMode) <;> grind

theorem exists_level (h : lowered c.logLevel ∈ levelNames) : ∃ l, c.level = .ok l := by
  obtain ⟨l, known⟩ := Option.isSome_iff_exists.1 (isSome_level h)
  unfold level
  split
  · exact ⟨.info, rfl⟩
  · exact ⟨l, by rw [known]⟩

/-- A setting that is not negative leaves nothing to object to. -/
theorem Setting.Shaped.objection?_put (shaped : s.Shaped) (positive : ¬ s.Negative)
    (h : c.objection? = none) : (s.put c).objection? = none := by
  obtain ⟨steps, stack, mode, level⟩ := objection?_eq_none_iff.1 h
  apply objection?_eq_none_iff.2
  cases s with
  | stepLimit n => exact ⟨Int.not_lt.1 positive, stack, mode, level⟩
  | maxStack n => exact ⟨steps, Int.not_lt.1 positive, mode, level⟩
  | saveMode name => exact ⟨steps, stack, isSome_mode shaped, level⟩
  | strictAsm b => exact ⟨steps, stack, mode, level⟩
  | labels b => exact ⟨steps, stack, mode, level⟩
  | logLevel name => exact ⟨steps, stack, mode, exists_level shaped⟩

theorem objection?_putAll (shaped : ∀ s ∈ settings, s.Shaped)
    (positive : ∀ s ∈ settings, ¬ s.Negative) (h : c.objection? = none) :
    (c.putAll settings).objection? = none := by
  induction settings generalizing c with
  | nil => exact h
  | cons s settings ih =>
    refine ih (fun r hr => shaped r (by simp [hr])) (fun r hr => positive r (by simp [hr])) ?_
    exact (shaped s (by simp)).objection?_put (positive s (by simp)) h

/-- A negative limit is found, wherever it stands. -/
theorem exists_objection_of_negative (distinct : (settings.map Setting.field).Nodup)
    (mem : s ∈ settings) (negative : s.Negative) :
    ∃ o detail, (c.putAll settings).objection? = some o ∧
      o.failure = .invalidInput .config detail := by
  have held := get_putAll_of_mem (c := c) distinct mem
  have below : (c.putAll settings).stepLimit < 0 ∨ (c.putAll settings).maxStack < 0 := by
    cases s with
    | stepLimit n =>
      cases held
      exact .inl negative
    | maxStack n =>
      cases held
      exact .inr negative
    | saveMode _ | strictAsm _ | labels _ | logLevel _ => cases negative
  unfold objection?
  split
  · exact ⟨_, _, rfl, rfl⟩
  next steps =>
    rw [if_pos (below.resolve_left steps)]
    exact ⟨_, _, rfl, rfl⟩

/-! ### Files -/

theorem Field.name_inj {f g : Field} (h : f.name = g.name) : f = g := by
  have found := f.ofName?_name
  rw [h, g.ofName?_name] at found
  exact (Option.some.inj found).symm

theorem nodup_names (distinct : (settings.map Setting.field).Nodup) :
    ((settings.map Setting.line).map Assignment.name).Nodup := by
  have names : (settings.map Setting.line).map Assignment.name =
      (settings.map Setting.field).map Field.name := by simp [Setting.line]
  rw [names]
  exact distinct.map fun f g => Field.name_inj

theorem filter_isUnknown (settings : List Setting) :
    ((settings.map Setting.line).map fun a => [a.name]).filter isUnknown = [] := by
  simp [isUnknown, Setting.line, Field.ofName?_name]

/-- A document that holds only settings is the default configuration with these settings. -/
theorem ofDocument_settings {d : Document} (h : d.Holds (settings.map Setting.line)) :
    ofDocument d = .ok (putAll {} settings) := by
  have fields : setAll {} d.roots = some (putAll {} settings) := by
    calc setAll {} d.roots
      _ = setAll {} ((settings.map Setting.line).map Assignment.root ++ []) := by
        rw [h.roots, List.append_nil]
      _ = (putAll {} settings).setAll [] := setAll_settings {} settings []
      _ = some (putAll {} settings) := rfl
  have known : d.keys.filter isUnknown = [] := by rw [h.listed, filter_isUnknown]
  simp only [ofDocument, fields, known]

/-- A document with a line for a key that is no field is refused for that key. -/
theorem ofDocument_unknown {d : Document} {a : Assignment}
    (h : d.Holds (before.map Setting.line ++ a :: after.map Setting.line))
    (unknown : Field.ofName? a.name = none) :
    ofDocument d = .error (.unknownKeys [[a.name]]) := by
  have fields : setAll {} d.roots = some ((putAll {} before).putAll after) := by
    let rest := (after.map Setting.line).map Assignment.root
    calc setAll {} d.roots
      _ = setAll {} ((before.map Setting.line).map Assignment.root ++ a.root :: rest) := by
        rw [h.roots, List.map_append, List.map_cons]
      _ = (putAll {} before).setAll (a.root :: rest) := setAll_settings ..
      _ = (putAll {} before).setAll (rest ++ []) := by simp [setAll, Assignment.root, unknown]
      _ = ((putAll {} before).putAll after).setAll [] := setAll_settings ..
      _ = some ((putAll {} before).putAll after) := rfl
  have others : d.keys.filter isUnknown = [[a.name]] := by
    have key : isUnknown [a.name] = true := by simp [isUnknown, unknown]
    rw [h.listed, List.map_append, List.filter_append, filter_isUnknown, List.map_cons,
      List.filter_cons_of_pos key, filter_isUnknown, List.nil_append]
  simp only [ofDocument, fields, others]

theorem parse_settings (closed : Bool) (distinct : (settings.map Setting.field).Nodup)
    (shaped : ∀ s ∈ settings, s.Shaped) :
    (∀ o, (putAll {} settings).objection? = some o →
      parse (Toml.file closed (settings.map Setting.line)) = .error (.objection o)) ∧
    ((putAll {} settings).objection? = none →
      parse (Toml.file closed (settings.map Setting.line)) = .ok (putAll {} settings)) := by
  have plain : ∀ a ∈ settings.map Setting.line, a.Plain := by
    grind [Setting.Shaped.plain]
  obtain ⟨d, read, holds⟩ := Document.exists_holds_of_file closed plain (nodup_names distinct)
  have described := ofDocument_settings holds
  constructor
  · intro o objection
    simp only [parse, read, described, objection]
  · intro objection
    simp only [parse, read, described, objection]

/-- No field has the same name in another case. -/
theorem Field.ofName?_eq_none {u : String} (bare : ∀ c ∈ u.toList, isBare c = true)
    (other : ∀ f : Field, lowered u ≠ f.name) : Field.ofName? u = none := by
  have folded : u.toList.map foldCase = (lowered u).toList := by
    rw [lowered, String.toList_ofList]
    apply List.map_congr_left
    intro c hc
    exact (lowerCase_of_isGraphic (Toml.isGraphic_of_isBare (bare c hc))).2
  have same : ∀ f : Field, f.name.toList.map foldCase = f.name.toList := by
    intro f
    cases f <;> decide
  rw [Field.ofName?, List.find?_eq_none]
  intro f _ matched
  rw [sameName, beq_iff_eq, same, folded] at matched
  exact other f (String.toList_inj.1 matched).symm

theorem parse_unknown (closed : Bool) {a : Assignment} (plain : a.Plain)
    (unknown : Field.ofName? a.name = none)
    (distinct : ((before ++ after).map Setting.field).Nodup)
    (shaped : ∀ s ∈ before ++ after, s.Shaped) :
    parse (Toml.file closed (before.map Setting.line ++ a :: after.map Setting.line)) =
      .error (.unknownKeys [[a.name]]) := by
  have plains : ∀ b ∈ before.map Setting.line ++ a :: after.map Setting.line, b.Plain := by
    grind [Setting.Shaped.plain]
  have fresh : ∀ s : Setting, s.line.name ≠ a.name := by
    intro s same
    have known : Field.ofName? s.line.name = some s.field := s.field.ofName?_name
    rw [same, unknown] at known
    cases known
  have names : ((before.map Setting.line ++ a :: after.map Setting.line).map
      Assignment.name).Nodup := by
    rw [List.map_append, List.map_cons, List.nodup_middle, List.nodup_cons, ← List.map_append,
      ← List.map_append]
    exact ⟨by simp [fresh], nodup_names distinct⟩
  obtain ⟨d, read, holds⟩ := Document.exists_holds_of_file closed plains names
  simp only [parse, read, ofDocument_unknown holds unknown]

end Config

namespace FileTree

open StackMachine.Config (Setting Field lowered putAll)

variable {t : FileTree} {path u : String} {content : List UInt8} {c : Config} {closed : Bool}
  {settings before after : List Setting}

theorem ne_empty_of_read (read : t.read path = .ok content) : path ≠ "" := by
  rintro rfl
  exact absurd (read_eq_ok_iff_place.1 read).1 (by decide)

theorem configAt_of_parse_ok (read : t.read path = .ok content)
    (parsed : Config.parse content = .ok c) : t.configAt path = (c, none) := by
  simp only [configAt, loadConfig, if_neg (ne_empty_of_read read), contentFor, read, parsed]

theorem configAt_of_parse_error {e : Config.FileError} (read : t.read path = .ok content)
    (parsed : Config.parse content = .error e) :
    t.configAt path = (.blank, some (e.failure path)) := by
  simp only [configAt, loadConfig, if_neg (ne_empty_of_read read), contentFor, read, parsed]

/-- No configuration is read, and the report is about invalid input. -/
def RefusesConfig (t : FileTree) (path : String) : Prop :=
  ∃ r : Report, t.configAt path = (.blank, some (.report r)) ∧ r.phase = .config ∧
    r.kind = .invalidInput

theorem refusesConfig_of_parse {e : Config.FileError} {detail : String}
    (read : t.read path = .ok content) (parsed : Config.parse content = .error e)
    (failed : e.failure path = .invalidInput .config detail) : t.RefusesConfig path := by
  refine ⟨{ phase := .config, kind := .invalidInput, detail }, ?_, rfl, rfl⟩
  rw [configAt_of_parse_error read parsed, failed]
  rfl

theorem configAt_of_settings (distinct : (settings.map Setting.field).Nodup)
    (shaped : ∀ s ∈ settings, s.Shaped) (positive : ∀ s ∈ settings, ¬ s.Negative)
    (read : t.read path = .ok (Toml.file closed (settings.map Setting.line))) :
    t.configAt path = (putAll {} settings, none) := by
  have sensible : (putAll {} settings).objection? = none :=
    Config.objection?_putAll shaped positive (by decide)
  exact configAt_of_parse_ok read ((Config.parse_settings closed distinct shaped).2 sensible)

theorem refusesConfig_of_negative {s : Setting} (distinct : (settings.map Setting.field).Nodup)
    (shaped : ∀ s ∈ settings, s.Shaped) (mem : s ∈ settings) (negative : s.Negative)
    (read : t.read path = .ok (Toml.file closed (settings.map Setting.line))) :
    t.RefusesConfig path := by
  obtain ⟨o, detail, objection, failed⟩ :=
    Config.exists_objection_of_negative (c := {}) distinct mem negative
  exact refusesConfig_of_parse read
    ((Config.parse_settings closed distinct shaped).1 o objection) failed

theorem refusesConfig_of_unknown (distinct : ((before ++ after).map Setting.field).Nodup)
    (shaped : ∀ s ∈ before ++ after, s.Shaped) (nonempty : u ≠ "")
    (bare : ∀ c ∈ u.toList, isBare c = true) (other : ∀ f : Field, lowered u ≠ f.name)
    (read : t.read path = .ok (Toml.file closed (before.map Setting.line ++
      { name := u, scalar := .integer 1 } :: after.map Setting.line))) :
    t.RefusesConfig path := by
  have fits : Int64.minValue.toInt ≤ 1 ∧ 1 ≤ Int64.maxValue.toInt := by decide
  have plain : Assignment.Plain { name := u, scalar := .integer 1 } :=
    ⟨by simpa using nonempty, bare, fits⟩
  have unknown := Field.ofName?_eq_none bare other
  exact refusesConfig_of_parse read
    (Config.parse_unknown closed plain unknown distinct shaped) rfl

/-- A file with one line for each of some fields, in any order, gives the default configuration with
exactly these fields replaced. A negative limit makes it invalid, and so does one more line for a
key that is no field in any case. -/
theorem config_file_sets_its_fields (t : FileTree) (path : String) (closed : Bool)
    (settings : List Setting) (distinct : (settings.map Setting.field).Nodup)
    (shaped : ∀ s ∈ settings, s.Shaped) :
    (t.read path = .ok (Toml.file closed (settings.map Setting.line)) →
      ((∀ s ∈ settings, ¬ s.Negative) →
        ∃ c, t.configAt path = (c, none) ∧ (∀ s ∈ settings, s.field.get c = s.scalar) ∧
          ∀ f ∉ settings.map Setting.field, f.get c = f.get {}) ∧
      ((∃ s ∈ settings, s.Negative) → t.RefusesConfig path)) ∧
    ∀ before after u, settings = before ++ after → u ≠ "" →
      (∀ c ∈ u.toList, isBare c = true) → (∀ f : Field, lowered u ≠ f.name) →
      t.read path = .ok (Toml.file closed (before.map Setting.line ++
        { name := u, scalar := .integer 1 } :: after.map Setting.line)) →
      t.RefusesConfig path := by
  refine ⟨fun read => ⟨fun positive => ?_, ?_⟩, ?_⟩
  · refine ⟨putAll {} settings, configAt_of_settings distinct shaped positive read, ?_, ?_⟩
    · intro s mem
      exact Config.get_putAll_of_mem distinct mem
    · intro f other
      exact Config.get_putAll_of_not_mem other
  · rintro ⟨s, mem, negative⟩
    exact refusesConfig_of_negative distinct shaped mem negative read
  · rintro before after u rfl nonempty bare other read
    exact refusesConfig_of_unknown distinct shaped nonempty bare other read

/-- A file with two fields in another order than that of the configuration, the same file with a
negative limit, and the same file with a line for `x` between its lines. -/
theorem config_file_sets_its_fields_mixed :
    let t : FileTree :=
      { nodes :=
          [(["plain"], .file (Toml.file true
            [⟨"log_level", .string "Warn"⟩, ⟨"step_limit", .integer 7⟩])),
          (["negative"], .file (Toml.file true
            [⟨"log_level", .string "Warn"⟩, ⟨"step_limit", .integer (-7)⟩])),
          (["unknown"], .file (Toml.file false
            [⟨"log_level", .string "Warn"⟩, ⟨"x", .integer 1⟩, ⟨"step_limit", .integer 7⟩]))] }
    t.configAt "plain" = ({ stepLimit := 7, logLevel := "Warn" }, none) ∧
      t.RefusesConfig "negative" ∧ t.RefusesConfig "unknown" := by
  intro t
  let settings : List Setting := [.logLevel "Warn", .stepLimit 7]
  refine ⟨?_, ?_, ?_⟩
  · obtain ⟨c, read, given, kept⟩ :=
      ((config_file_sets_its_fields t "plain" true settings (by decide) (by decide)).1 rfl).1
        (by decide)
    have same : c = { stepLimit := 7, logLevel := "Warn" } := by
      apply Config.eq_of_get
      intro f
      cases f with
      | stepLimit => exact given (.stepLimit 7) (by decide)
      | logLevel => exact given (.logLevel "Warn") (by decide)
      | maxStack => exact kept .maxStack (by decide)
      | saveMode => exact kept .saveMode (by decide)
      | strictAsm => exact kept .strictAsm (by decide)
      | labels => exact kept .labels (by decide)
    rw [read, same]
  · let below : List Setting := [.logLevel "Warn", .stepLimit (-7)]
    exact ((config_file_sets_its_fields t "negative" true below (by decide) (by decide)).1 rfl).2
      (by decide)
  · have other : ∀ f : Field, lowered "x" ≠ f.name := by
      intro f
      cases f <;> decide
    exact (config_file_sets_its_fields t "unknown" false settings (by decide) (by decide)).2
      [.logLevel "Warn"] [.stepLimit 7] "x" rfl (by decide) (List.all_eq_true.1 rfl) other rfl

end FileTree

end StackMachine
