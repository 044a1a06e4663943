import Airflow.Configuration.Proof.InEffect
import Airflow.Configuration.Proof.Sensitive

/-!
# Disputed options

The sources of a configuration depend on its shape only (`SameShape.lastSource`). The texts of a
configuration are replaced by labels (`relabel`), so that different sources have different values and a
text that is not plain shows. With it, options are undisputed if they are in effect in every
configuration of the shape (`inEffect_iff`).
-/

namespace Airflow.Configuration

open AirflowConfigParser

variable {c c' : AirflowConfigParser}

/-! ## Sources of the same shape -/

namespace SameShape

theorem sensitiveConfigValues (h : SameShape c c') :
    c'.description.sensitiveConfigValues = c.description.sensitiveConfigValues :=
  (congrArg Description.sensitiveConfigValues h.description).trans rfl

theorem casing (h : SameShape c c') : c'.description.casing = c.description.casing :=
  (congrArg Description.casing h.description).trans rfl

theorem envVarName (h : SameShape c c') : c'.description.envVarName = c.description.envVarName :=
  (congrArg Description.envVarName h.description).trans rfl

theorem lowerName (h : SameShape c c') : c'.description.lowerName = c.description.lowerName :=
  (congrArg Description.lowerName h.description).trans rfl

theorem resolve (h : SameShape c c') : c'.description.resolve = c.description.resolve :=
  (congrArg Description.resolve h.description).trans rfl

theorem deprecatedName (h : SameShape c c') :
    c'.description.deprecatedName = c.description.deprecatedName :=
  (congrArg Description.deprecatedName h.description).trans rfl

theorem putName (h : SameShape c c') : c'.description.putName = c.description.putName :=
  (congrArg Description.putName h.description).trans rfl

theorem deprecatedOptions (h : SameShape c c') :
    c'.description.deprecatedOptions = c.description.deprecatedOptions :=
  (congrArg Description.deprecatedOptions h.description).trans rfl

theorem current (h : SameShape c c') (name : OptionName) :
    c'.description.Current name ↔ c.description.Current name := by
  rw [Description.Current, Description.Current, h.resolve, h.lowerName]

theorem textSource_congr {parser parser' : Parser} {origin : Origin} {name : OptionName}
    (h : (parser'.text? name).isSome = (parser.text? name).isSome) :
    textSource parser' origin name = textSource parser origin name := by
  rw [textSource, textSource]
  cases hget : parser'.text? name with
  | none =>
    rw [hget, Option.isSome_none, eq_comm, Option.isSome_eq_false_iff, Option.isNone_iff_eq_none] at h
    rw [h]
  | some text =>
    rw [hget, Option.isSome_some, eq_comm, Option.isSome_iff_exists] at h
    obtain ⟨text', htext'⟩ := h
    rw [htext']
    rfl

theorem fileSource (h : SameShape c c') : c'.fileSource = c.fileSource :=
  funext fun name => textSource_congr (h.texts (.file name))

theorem defaultSource (h : SameShape c c') : c'.defaultSource = c.defaultSource :=
  funext fun name => textSource_congr (h.texts (.default name))

theorem pre27Source (h : SameShape c c') : c'.pre27Source = c.pre27Source :=
  funext fun name => textSource_congr (h.texts (.pre27 name))

theorem envSource (h : SameShape c c') : c'.envSource = c.envSource := by
  funext name
  simp only [AirflowConfigParser.envSource, h.envVarName, h.environ, h.sensitiveConfigValues]

theorem computedSource (h : SameShape c c') : c'.computedSource = c.computedSource := by
  funext suffix computation name
  rw [AirflowConfigParser.computedSource, AirflowConfigParser.computedSource, h.fileSource,
    h.sensitiveConfigValues]

theorem firstSource (h : SameShape c c') : c'.firstSource = c.firstSource := by
  funext name
  simp only [AirflowConfigParser.firstSource, h.lowerName, h.resolve, h.deprecatedName,
    h.envSource, h.fileSource, h.computedSource, h.defaultSource, h.pre27Source]

theorem skipsDefault (h : SameShape c c') (name : OptionName) :
    c'.skipsDefault name = c.skipsDefault name := by
  have hconfig : ∀ old, c'.deprecatedValueIsSetInConfig old =
      c.deprecatedValueIsSetInConfig old := by
    intro old
    rw [deprecatedValueIsSetInConfig, deprecatedValueIsSetInConfig, List.any_cons, List.any_cons,
      List.any_cons, List.any_cons]
    exact congrArg₂ (· || ·) (h.texts (.pre27 old))
      (congrArg₂ (· || ·) (h.texts (.file old)) rfl)
  have henv : ∀ old suffix, c'.deprecatedVariableIsSet old suffix =
      c.deprecatedVariableIsSet old suffix := by
    intro old suffix
    rw [deprecatedVariableIsSet, deprecatedVariableIsSet, h.casing]
    exact h.texts (.environ _)
  simp only [AirflowConfigParser.skipsDefault, deprecatedIsSet, h.deprecatedOptions, hconfig, henv]

theorem textualSource (h : SameShape c c') : c'.textualSource = c.textualSource := by
  have hwrite : c'.envWrite = c.envWrite := by
    funext name envVar
    simp only [envWrite, h.putName, h.envSource]
  funext name
  rw [AirflowConfigParser.textualSource, AirflowConfigParser.textualSource, parserSource,
    parserSource, hwrite, h.environ, h.fileSource, h.defaultSource, h.pre27Source, h.skipsDefault]

theorem lastSource (h : SameShape c c') : c'.lastSource = c.lastSource := by
  rw [AirflowConfigParser.lastSource, AirflowConfigParser.lastSource, h.sensitiveConfigValues,
    h.textualSource]

theorem undisputed (h : SameShape c c') (hu : c.Undisputed) : c'.Undisputed where
  first name s hcurrent hs := by
    rw [h.firstSource]
    rw [h.lastSource] at hs
    exact hu.first name s ((h.current name).mp hcurrent) hs
  settled name s hcurrent hs := by
    rw [h.lastSource] at hs
    exact (hu.settled name s ((h.current name).mp hcurrent) hs).imp_right fun hsettled =>
      hsettled.imp_right (h.plain s.origin)
  keys := by
    rw [h.lastSource, h.casing]
    exact hu.keys
  sections := by
    rw [h.lastSource, h.casing, h.parserSections]
    exact hu.sections

end SameShape

namespace AirflowConfigParser

/-! ## Where sources are written -/

theorem envSource_written {name : OptionName} {s : Source} (hs : c.envSource name = some s) :
    (c.text? s.origin).isSome := by
  obtain ⟨envVar, hmem, rfl | ⟨computation, rfl, -⟩⟩ := envSource_cases hs
  · exact Option.isSome_iff_exists.mpr (Dict.mem_keys.mp hmem)
  · exact Option.isSome_iff_exists.mpr (Dict.mem_keys.mp hmem)

theorem firstSource_written {name : OptionName} {s : Source} (hs : c.firstSource name = some s) :
    (c.text? s.origin).isSome := by
  have htext : ∀ {parser origin name s}, textSource parser origin name = some s →
      (parser.text? name).isSome ∧ s.origin = origin := by
    intro parser origin name s hs
    obtain ⟨hsome, rfl⟩ := textSource_eq_some.mp hs
    exact ⟨hsome, rfl⟩
  refine firstSource_ind (P := fun s => (c.text? s.origin).isSome)
    (fun name s hs => envSource_written hs) ?_ ?_ ?_ ?_ hs
  · intro name _ s hs
    rw [(htext hs).2]
    exact (htext hs).1
  · intro suffix computation name s hs
    rw [computedSource] at hs
    split at hs
    · obtain ⟨s', hs', rfl⟩ := Option.map_eq_some_iff.mp hs
      rw [Source.compute, (htext hs').2]
      exact (htext hs').1
    · cases hs
  · intro s hs
    rw [(htext hs).2]
    exact (htext hs).1
  · intro s hs
    rw [(htext hs).2]
    exact (htext hs).1

theorem textualSource_written {name : OptionName} {s : Source}
    (hs : c.textualSource name = some s) : (c.text? s.origin).isSome := by
  rw [textualSource, parserSource, Option.or_eq_some_iff, Option.or_eq_some_iff,
    Option.or_eq_some_iff] at hs
  rcases hs with hs | ⟨-, hs | ⟨-, hs | ⟨-, hs⟩⟩⟩
  · obtain ⟨envVar, -, hwrite⟩ := List.exists_of_findSome?_eq_some hs
    obtain ⟨spelled, -, hspelled⟩ := Option.bind_eq_some_iff.mp hwrite
    split at hspelled
    · exact envSource_written hspelled
    · cases hspelled
  · obtain ⟨hsome, rfl⟩ := textSource_eq_some.mp hs
    exact hsome
  · split at hs
    · cases hs
    · obtain ⟨hsome, rfl⟩ := textSource_eq_some.mp hs
      exact hsome
  · obtain ⟨hsome, rfl⟩ := textSource_eq_some.mp hs
    exact hsome

theorem lastSource_written {name : OptionName} {s : Source} (hs : c.lastSource name = some s) :
    (c.text? s.origin).isSome :=
  lastSource_ind (P := fun _ s => (c.text? s.origin).isSome)
    (fun _ _ hs => textualSource_written hs) (fun _ _ _ _ _ hs => hs) hs

/-! ## Labels -/

/-- `%%` is read as `%`. -/
def unescape : List Char → List Char
  | '%' :: '%' :: cs => '%' :: unescape cs
  | ch :: cs => ch :: unescape cs
  | [] => []

/-- What a label expands to. -/
def expandChar (ch : Char) : Char := if ch = '$' then 'x' else ch

/-- A plain character for each. -/
def plainChar (ch : Char) : Char :=
  if ch = '$' then 'd' else if ch = '~' then 't' else if ch = '%' then 'p' else ch

/-- The mark of what is computed. -/
def mark : Computation → Char
  | .cmd => 'c'
  | .secret => 's'

/-- What is computed from a label. -/
def marked (computation : Computation) (label : String) : String :=
  String.ofList (mark computation :: label.toList.map plainChar)

/-- The parsers of a configuration with labels for their texts. -/
def relabelParser (origin : OptionName → Origin) (label : Origin → String) (parser : Parser) :
    Parser :=
  parser.mapValues fun sect options => options.mapValues fun key _ => label (origin (sect, key))

/-- The configuration of the same shape whose texts are labels. -/
def relabel (c : AirflowConfigParser) (label : Origin → String) : AirflowConfigParser where
  description := c.description.withDefaults
    (relabelParser .default label c.description.defaultValues)
    (relabelParser .pre27 label c.description.pre27DefaultValues)
  environ := c.environ.mapValues fun envVar _ => label (.environ envVar)
  config := relabelParser .file label c.config
  runCommand := marked .cmd
  secretBackend path := some (marked .secret path)
  expandEnvVar text := String.ofList (text.toList.map expandChar)
  interpolate _ text := String.ofList (unescape text.toList)

theorem text?_relabelParser {origin : OptionName → Origin} {label : Origin → String}
    {parser : Parser} {name : OptionName} :
    (relabelParser origin label parser).text? name =
      (parser.text? name).map fun _ => label (origin name) := by
  rw [relabelParser, Parser.text?, Parser.text?, Dict.get?_mapValues]
  cases parser.get? name.1 with
  | none => rfl
  | some options =>
    rw [Option.map_some, Option.bind_some, Option.bind_some, Dict.get?_mapValues]

theorem text?_relabel {label : Origin → String} (origin : Origin) :
    (c.relabel label).text? origin = (c.text? origin).map fun _ => label origin := by
  cases origin with
  | environ envVar => exact Dict.get?_mapValues _
  | file name => exact text?_relabelParser
  | default name => exact text?_relabelParser
  | pre27 name => exact text?_relabelParser

theorem text_relabel {label : Origin → String} {origin : Origin}
    (h : (c.text? origin).isSome) : (c.relabel label).text origin = label origin := by
  obtain ⟨text, htext⟩ := Option.isSome_iff_exists.mp h
  rw [AirflowConfigParser.text, text?_relabel, htext]
  rfl

theorem plain_empty : Plain "" := fun _ h => absurd h List.not_mem_nil

/-- Labels that are plain for plain texts keep the shape. -/
theorem relabel_sameShape {label : Origin → String}
    (hlabel : ∀ origin, Plain (c.text origin) → Plain (label origin)) :
    SameShape c (c.relabel label) where
  description := rfl
  environ := Dict.keys_mapValues _
  parserSections := by
    simp only [parserSections, relabel, relabelParser, Description.withDefaults,
      Dict.keys_mapValues]
  texts origin := by rw [text?_relabel, Option.isSome_map]
  plain origin hplain := by
    rw [AirflowConfigParser.text, text?_relabel]
    cases c.text? origin with
    | none => exact plain_empty
    | some text => exact hlabel origin hplain

theorem unescape_of_plain {cs : List Char} (h : ∀ ch ∈ cs, ch ≠ '%') : unescape cs = cs := by
  induction cs with
  | nil => rfl
  | cons ch cs ih =>
    rw [List.forall_mem_cons] at h
    rw [unescape, ih h.2]
    rintro cs' rfl -
    exact h.1 rfl

theorem unescape_escape (cs : List Char) :
    unescape (cs.flatMap fun ch => if ch = '%' then ['%', '%'] else [ch]) = cs := by
  induction cs with
  | nil => rfl
  | cons ch cs ih =>
    rw [List.flatMap_cons]
    by_cases hch : ch = '%'
    · rw [if_pos hch, hch]
      exact congrArg ('%' :: ·) ih
    · rw [if_neg hch, List.singleton_append, unescape, ih]
      rintro cs' rfl -
      exact hch rfl

theorem plainChar_spec (ch : Char) : plainChar ch ≠ '$' ∧ plainChar ch ≠ '~' ∧ plainChar ch ≠ '%' := by
  unfold plainChar
  split
  · decide
  · split
    · decide
    · split
      · decide
      · exact ⟨‹_›, ‹_›, ‹_›⟩

theorem marked_plain (computation : Computation) (label : String) :
    marked computation label ≠ "" ∧ Plain (marked computation label) := by
  refine ⟨fun h => ?_, fun ch hch => ?_⟩
  · have hlist := congrArg String.toList h
    rw [marked, String.toList_ofList] at hlist
    cases hlist
  · rw [marked, String.toList_ofList] at hch
    rcases List.mem_cons.mp hch with rfl | hch
    · cases computation <;> decide
    · obtain ⟨ch', -, rfl⟩ := List.mem_map.mp hch
      exact plainChar_spec ch'

theorem expand_of_plain {text : String} (h : Plain text) :
    String.ofList (text.toList.map expandChar) = text := by
  have hmap : text.toList.map expandChar = text.toList :=
    List.map_congr_left (fun ch hch => if_neg (h ch hch).1) |>.trans (List.map_id' _)
  rw [hmap, String.ofList_toList]

theorem relabel_regular (c : AirflowConfigParser) (label : Origin → String) :
    (c.relabel label).Regular where
  runCommand command := marked_plain .cmd command
  secretBackend path := ⟨_, rfl, marked_plain .secret path⟩
  expand_of_plain _ hplain := expand_of_plain hplain
  expand_expand text := by
    change String.ofList ((String.ofList (text.toList.map expandChar)).toList.map expandChar) =
      String.ofList (text.toList.map expandChar)
    rw [String.toList_ofList, List.map_map]
    refine congrArg String.ofList (List.map_congr_left fun ch _ => ?_)
    by_cases hch : ch = '$'
    · rw [hch]
      decide
    · have hexpand : expandChar ch = ch := if_neg hch
      rw [Function.comp_apply, hexpand, hexpand]
  interpolate_of_plain options text hplain := by
    change String.ofList (unescape text.toList) = text
    rw [unescape_of_plain fun ch hch => (hplain ch hch).2.2, String.ofList_toList]
  interpolate_escape options text := by
    change String.ofList (unescape (escape text).toList) = text
    rw [escape, String.toList_ofList, unescape_escape, String.ofList_toList]

/-! ## Different sources have different labels -/

/-- The value of a source whose labels are plain. -/
def labelled (label : Origin → String) (s : Source) : String :=
  s.computations.foldl (fun value computation => marked computation value) (label s.origin)

theorem computeValue_relabel (label : Origin → String) (value : String)
    (computation : Computation) :
    (c.relabel label).computeValue value computation = marked computation value := by
  cases computation <;> rfl

theorem foldl_marked (computations : List Computation) {value : String}
    (hvalue : ∀ ch ∈ value.toList, plainChar ch = ch) :
    (computations.foldl (fun value computation => marked computation value) value).toList =
      (computations.map mark).reverse ++ value.toList := by
  induction computations generalizing value with
  | nil => rfl
  | cons computation computations ih =>
    have hmap : value.toList.map plainChar = value.toList :=
      (List.map_congr_left hvalue).trans (List.map_id' _)
    have hmarked : (marked computation value).toList = mark computation :: value.toList := by
      rw [marked, String.toList_ofList, hmap]
    rw [List.foldl_cons, ih, hmarked, List.map_cons, List.reverse_cons, List.append_assoc,
      List.singleton_append]
    rw [hmarked, List.forall_mem_cons]
    exact ⟨by cases computation <;> rfl, hvalue⟩

/-- The label that tells a text from all others. -/
def single (origin origin' : Origin) : String := if origin' = origin then "x" else "y"

theorem toList_single (origin origin' : Origin) :
    (single origin origin').toList = [if origin' = origin then 'x' else 'y'] := by
  unfold single
  split <;> rfl

theorem single_plain (origin origin' : Origin) : Plain (single origin origin') := by
  intro ch hch
  rw [toList_single, List.mem_singleton] at hch
  subst hch
  split <;> decide

theorem same_of_labelled {s s' : Source}
    (h : labelled (single s.origin) s = labelled (single s.origin) s') : s.Same s' := by
  have hchars : ∀ origin, ∀ ch ∈ (single s.origin origin).toList, plainChar ch = ch := by
    intro origin ch hch
    rw [toList_single, List.mem_singleton] at hch
    subst hch
    split <;> decide
  have hlist := congrArg String.toList h
  rw [labelled, labelled, foldl_marked _ (hchars _), foldl_marked _ (hchars _)] at hlist
  rw [toList_single, toList_single, if_pos rfl] at hlist
  obtain ⟨hcomputations, hlast⟩ := List.append_inj' hlist rfl
  constructor
  · by_contra hne
    rw [if_neg fun heq => hne heq.symm] at hlast
    exact absurd hlast (by decide)
  · refine List.map_injective_iff.mpr (fun computation computation' heq => ?_)
      (List.reverse_injective hcomputations)
    cases computation <;> cases computation' <;> first | rfl | exact absurd heq (by decide)

theorem shown_relabel {label : Origin → String} (hplain : ∀ origin, Plain (label origin))
    {s : Source} (hs : (c.text? s.origin).isSome) (raw : Bool) :
    (c.relabel label).shown raw s = labelled label s := by
  have htext : (c.relabel label).text s.origin = label s.origin := text_relabel hs
  have hregular := c.relabel_regular label
  rw [shown, shownText_of_plain hregular (htext ▸ hplain s.origin), ite_self, htext, labelled]
  congr 1
  funext value computation
  rw [computeValue_relabel, escapeIf_of_plain (marked_plain computation value).2]

theorem got_relabel {label : Origin → String} (hplain : ∀ origin, Plain (label origin))
    {s : Source} (hs : (c.text? s.origin).isSome) :
    (c.relabel label).got s = labelled label s := by
  have htext : (c.relabel label).text s.origin = label s.origin := text_relabel hs
  have hregular := c.relabel_regular label
  have hplain' : Plain ((c.relabel label).text s.origin) := htext ▸ hplain s.origin
  rw [got, labelled]
  cases s.computations with
  | nil => exact (gotText_of_plain hregular hplain').trans htext
  | cons computation computations =>
    dsimp only
    rw [interpolated_of_plain hregular hplain', htext]
    congr 1
    exact funext fun value => funext fun computation =>
      computeValue_relabel label value computation

/-! ## Options that are in effect are undisputed -/

section
variable (h : ∀ c', SameShape c c' → c'.Regular → c'.InEffect)

include h

/-- Labels are in effect. -/
theorem relabel_inEffect {label : Origin → String}
    (hlabel : ∀ origin, Plain (c.text origin) → Plain (label origin)) :
    (c.relabel label).InEffect :=
  h _ (relabel_sameShape hlabel) (c.relabel_regular label)

/-- What is shown of labels is what `get` gives. -/
theorem shown_relabel_eq {label : Origin → String}
    (hlabel : ∀ origin, Plain (c.text origin) → Plain (label origin)) {name : OptionName}
    (hcurrent : c.description.Current name) {s : Source} (hs : c.lastSource name = some s) :
    ∃ s', c.firstSource name = some s' ∧
      (c.relabel label).got s' = (c.relabel label).shown false s := by
  have hshape := relabel_sameShape hlabel
  have hregular := c.relabel_regular label
  have hlookup := lookup?_asDict hregular false name
  rw [hshape.lastSource, hs, Option.map_some] at hlookup
  have hget := (relabel_inEffect h hlabel).get name _ ((hshape.current name).mpr hcurrent) hlookup
  rw [get_eq hregular, hshape.firstSource, Option.map_eq_some_iff] at hget
  exact hget

theorem first_of_inEffect {name : OptionName} (hcurrent : c.description.Current name) {s : Source}
    (hs : c.lastSource name = some s) :
    ∃ s', c.firstSource name = some s' ∧ s.Same s' := by
  have hplain := single_plain s.origin
  obtain ⟨s', hs', heq⟩ := shown_relabel_eq h (fun origin _ => hplain origin) hcurrent hs
  rw [shown_relabel hplain (lastSource_written hs), got_relabel hplain (firstSource_written hs')]
    at heq
  exact ⟨s', hs', same_of_labelled heq.symm⟩

/-- The copy can be read by a process without a config file. -/
theorem readable_of_inEffect :
    (∀ sect key key', (c.lastSource (sect, key)).isSome → (c.lastSource (sect, key')).isSome →
        c.description.casing.lower key = c.description.casing.lower key' → key = key') ∧
      ∀ before sect after, c.parserSections = before ++ sect :: after → sect ∉ before →
        (∃ key, (c.lastSource (sect, key)).isSome) → c.description.casing.lower sect = "" ∨
          c.description.casing.lower sect ∈ before ++ [sect] := by
  have hlabel : ∀ origin, Plain (c.text origin) → Plain "" := fun _ _ => plain_empty
  have hshape := relabel_sameShape hlabel
  have hprocess : (c.relabel fun _ => "").WithoutEnviron
      { c.relabel fun _ => "" with environ := {} } :=
    ⟨rfl, rfl, rfl, fun _ h => absurd h List.not_mem_nil⟩
  obtain ⟨process', hread, -⟩ := (relabel_inEffect h hlabel).copy _ {} hprocess
  rw [readCopy] at hread
  cases hdict : RawParser.readDict (c.relabel fun _ => "").description.casing {}
      (c.relabel fun _ => "").tmpConfigurationCopy with
  | error e =>
    rw [hdict] at hread
    cases hread
  | ok raw' =>
    have hreadable := (readable_iff (c.relabel_regular _)).mp (RawParser.readable_of_readDict hdict)
    rwa [hshape.lastSource, hshape.casing, hshape.parserSections] at hreadable

/-- The label of a text that is not plain. -/
def odd (origin origin' : Origin) : String := if origin' = origin then "$%%" else ""

theorem copy_relabel_eq {label : Origin → String}
    (hlabel : ∀ origin, Plain (c.text origin) → Plain (label origin)) {name : OptionName}
    (hcurrent : c.description.Current name) {s s' : Source} (hs : c.lastSource name = some s)
    (hs' : c.firstSource name = some s') :
    String.ofList ((unescape ((c.relabel label).shown true s).toList).map expandChar) =
      (c.relabel label).got s' := by
  have hshape := relabel_sameShape hlabel
  have hregular := c.relabel_regular label
  have hprocess : (c.relabel label).WithoutEnviron { c.relabel label with environ := {} } :=
    ⟨rfl, rfl, rfl, fun _ h => absurd h List.not_mem_nil⟩
  obtain ⟨process', hread, hget⟩ := (relabel_inEffect h hlabel).copy _ {} hprocess
  obtain ⟨f, hf, hsame⟩ := first_of_inEffect h hcurrent hs
  have hlast : (c.relabel label).lastSource name = some s := by rw [hshape.lastSource, hs]
  have hlower := lower_of_same hcurrent hs hf hsame
  rw [← hshape.casing] at hlower
  obtain ⟨options, hcopy⟩ := get_readCopy hregular hprocess hread
    ((hshape.current name).mpr hcurrent) hlast hlower fun name' heq hsome => by
      rw [hshape.lastSource] at hsome
      rw [hshape.lowerName] at heq
      exact section_unique (fun _ _ hcurrent hs => first_of_inEffect h hcurrent hs) hcurrent
        (Option.isSome_iff_exists.mpr ⟨s, hs⟩) hsome heq
  have hsome : (((c.relabel label).asDict { sensitive := true }).lookup? name).isSome := by
    rw [lookup?_asDict hregular, hlast]
    rfl
  have hsameget := hget name ((hshape.current name).mpr hcurrent) hsome
  rw [hcopy, get_eq hregular, hshape.firstSource, hs', Option.map_some, Option.some.injEq]
    at hsameget
  rw [← hsameget]
  change _ = String.ofList ((String.ofList (unescape _)).toList.map expandChar)
  rw [String.toList_ofList]

omit h in
theorem expand_odd (label : Origin → String) : (c.relabel label).expandEnvVar "$%" = "x%" := by
  change String.ofList ("$%".toList.map expandChar) = "x%"
  decide

omit h in
theorem interpolated_of_odd {label : Origin → String} {origin : Origin}
    (hne : ∀ envVar, origin ≠ .environ envVar) (htext : (c.relabel label).text origin = "$%%") :
    (c.relabel label).interpolated origin = "$%" ∧
      ∀ raw, (c.relabel label).shownText raw origin = if raw then "$%%" else "$%" := by
  have hinterpolated : (c.relabel label).interpolated origin = "$%" := by
    have hunescape : (c.relabel label).interpolated origin =
        String.ofList (unescape ((c.relabel label).text origin).toList) := by
      cases origin with
      | environ envVar => exact absurd rfl (hne envVar)
      | file name => rfl
      | default name => rfl
      | pre27 name => rfl
    rw [hunescape, htext]
    decide
  refine ⟨hinterpolated, fun raw => ?_⟩
  rw [← hinterpolated, ← htext]
  cases origin with
  | environ envVar => exact absurd rfl (hne envVar)
  | file name => rfl
  | default name => rfl
  | pre27 name => rfl

theorem settled_of_inEffect {name : OptionName} (hcurrent : c.description.Current name)
    {s : Source} (hs : c.lastSource name = some s) : c.Settled s := by
  by_contra hsettled
  rw [Settled, not_or, not_or] at hsettled
  obtain ⟨hspelled, henviron, hplain⟩ := hsettled
  have hspelled : s.spelled = false := by simpa using hspelled
  obtain ⟨f, hf, hsame⟩ := first_of_inEffect h hcurrent hs
  have hlabel : ∀ origin, Plain (c.text origin) → Plain (odd s.origin origin) := by
    intro origin horigin
    rw [odd, if_neg]
    · exact plain_empty
    · rintro rfl
      exact hplain horigin
  have htext : (c.relabel (odd s.origin)).text s.origin = "$%%" := by
    rw [text_relabel (lastSource_written hs), odd, if_pos rfl]
  obtain ⟨f', hf', hshown⟩ := shown_relabel_eq h hlabel hcurrent hs
  have hcopy := copy_relabel_eq h hlabel hcurrent hs hf
  rw [hf, Option.some.injEq] at hf'
  subst hf'
  rcases firstSource_computations hf with hnil | ⟨computation, hone⟩
  · -- the text of a parser: `get` expands it, `as_dict` does not
    have hgot : (c.relabel (odd s.origin)).got f = (c.relabel (odd s.origin)).gotText s.origin := by
      rw [got, hnil, ← hsame.1]
    rw [← hsame.2] at hnil
    have hne : ∀ envVar, s.origin ≠ .environ envVar := fun envVar horigin =>
      henviron ⟨hnil, envVar, horigin⟩
    obtain ⟨hinterpolated, htexts⟩ := interpolated_of_odd hne htext
    have hshows : ∀ raw, (c.relabel (odd s.origin)).shown raw s = if raw then "$%%" else "$%" := by
      intro raw
      rw [shown, hnil, hspelled]
      exact htexts raw
    rw [hshows] at hshown hcopy
    rw [hgot] at hshown hcopy
    cases horigin : s.origin with
    | environ envVar => exact hne envVar horigin
    | file name' =>
      rw [horigin] at hinterpolated
      rw [horigin, gotText, hinterpolated, expand_odd] at hshown
      · exact absurd hshown (by decide)
      · exact fun _ h => by cases h
    | default name' =>
      rw [horigin] at hinterpolated
      rw [horigin, gotText, hinterpolated, expand_odd] at hshown
      · exact absurd hshown (by decide)
      · exact fun _ h => by cases h
    | pre27 name' =>
      rw [horigin] at hinterpolated
      rw [horigin, gotText, hinterpolated] at hcopy
      exact absurd hcopy (by decide)
  · have hgot : (c.relabel (odd s.origin)).got f =
        marked computation ((c.relabel (odd s.origin)).interpolated s.origin) := by
      rw [got, hone, ← hsame.1]
      exact computeValue_relabel _ _ _
    rw [← hsame.2] at hone
    have hshows : ∀ raw, (c.relabel (odd s.origin)).shown raw s = escapeIf raw
        (marked computation ((c.relabel (odd s.origin)).shownText raw s.origin)) := by
      intro raw
      rw [shown, hone, hspelled]
      exact congrArg (escapeIf raw) (computeValue_relabel _ _ _)
    rw [hshows] at hshown hcopy
    rw [hgot] at hshown hcopy
    by_cases hne : ∀ envVar, s.origin ≠ .environ envVar
    · -- a text in the config file: a copy has computed with the text before interpolation
      obtain ⟨hinterpolated, htexts⟩ := interpolated_of_odd hne htext
      rw [hinterpolated, htexts] at hcopy
      cases computation <;> exact absurd hcopy (by decide)
    · -- a variable: `as_dict` computes with the text after expansion
      rw [not_forall] at hne
      obtain ⟨envVar, horigin⟩ := hne
      rw [not_not] at horigin
      have hinterpolated : (c.relabel (odd s.origin)).interpolated s.origin = "$%%" := by
        rw [← htext]
        generalize odd s.origin = label
        rw [horigin]
        rfl
      have hshownText : (c.relabel (odd s.origin)).shownText false s.origin = "x%%" := by
        have hexpand : (c.relabel (odd s.origin)).shownText false s.origin =
            String.ofList (((c.relabel (odd s.origin)).text s.origin).toList.map expandChar) := by
          generalize odd s.origin = label
          rw [horigin]
          rfl
        rw [hexpand, htext]
        decide
      rw [hinterpolated, hshownText] at hshown
      cases computation <;> exact absurd hshown (by decide)

end

/-- A sensitive option whose config file has a value as well as a command. -/
def disputedConfig : AirflowConfigParser where
  description :=
    { dottedDescription with options := Dict.set {} "s" (Dict.set {} "k" { sensitive := true }) }
  config := Dict.set {} "s" (Dict.set (Dict.set {} "k" "value") "k_cmd" "command")
  runCommand := marked .cmd
  secretBackend path := some (marked .secret path)
  expandEnvVar text := String.ofList (text.toList.map expandChar)
  interpolate _ text := String.ofList (unescape text.toList)

/-- `get` gives the value, `as_dict` shows the output of the command. -/
theorem inEffect_disputed : ¬∀ c : AirflowConfigParser, c.Regular → c.InEffect := by
  intro h
  have hregular : disputedConfig.Regular := by
    have hr := disputedConfig.relabel_regular fun _ => ""
    exact ⟨hr.runCommand, hr.secretBackend, hr.expand_of_plain, hr.expand_expand,
      hr.interpolate_of_plain, hr.interpolate_escape⟩
  have hcurrent : disputedConfig.description.Current ("s", "k") := by
    unfold Description.Current
    decide
  have hget := (h disputedConfig hregular).get ("s", "k") ⟨"ccommand", none⟩ hcurrent (by decide)
  revert hget
  decide

/-- **What `as_dict` shows is in effect.** What `as_dict` shows, and what a copy gives, is what `get`
gives, in every configuration of a shape, exactly when its options are undisputed. -/
theorem inEffect_iff (c : AirflowConfigParser) :
    (∀ c', SameShape c c' → c'.Regular → c'.InEffect) ↔ c.Undisputed := by
  constructor
  · intro h
    exact ⟨fun _ _ hcurrent hs => first_of_inEffect h hcurrent hs,
      fun _ _ hcurrent hs => settled_of_inEffect h hcurrent hs,
      (readable_of_inEffect h).1, (readable_of_inEffect h).2⟩
  · intro hu c' hshape hregular
    exact (hshape.undisputed hu).inEffect hregular

end AirflowConfigParser

end Airflow.Configuration
