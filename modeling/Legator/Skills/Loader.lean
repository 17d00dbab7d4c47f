import Mathlib.Data.List.DropRight
import Mathlib.Data.List.Infix
import Legator.Time
import Legator.Skills.OciRef

/-!
# Loading skills

The `skill` package. `Load` sends a source to one of four loaders by its form: `bundled`,
`configmap://name[/key]`, `git://...`, `oci://...`, a bare registry reference
(a `/` and a `:` or `@`), and anything else as a ConfigMap name. Every loader
ends in `Parse`, which cuts a `SKILL.md` into YAML frontmatter and a markdown
body with `splitFrontmatter`, decodes the frontmatter, and keeps the fields a
skill has.

The YAML decoder (`sigs.k8s.io/yaml`), the ConfigMap client, the Git loader and
the OCI registry are not part of the package: they are the parameters `Yaml`,
`Sources` and `OCIWorld`. Texts quoted with `%q` are quoted without escapes, as
in `Legator.Time.quote`. As in the rest of `Legator.Skills`, Go strings are
modelled by their characters: every pattern searched for here is ASCII.

A `SKILL.md` written as `---`, a YAML block, `---` and a markdown body is read
back exactly, the YAML block as written and the body trimmed, whenever the YAML
block has no line that starts with `---` (`parse_render`).
-/

namespace Legator.Skills

open Legator.Time (quote)

/-! ## `strings.TrimSpace` -/

/-- `unicode.IsSpace`: six ASCII spaces, U+0085 and U+00A0 in Latin-1, and the
`White_Space` table above it. -/
def isSpace (c : Char) : Bool :=
  if c.val ≤ 0xFF then
    c == '\t' || c == '\n' || c.val == 0x0B || c.val == 0x0C || c == '\r' || c == ' ' ||
      c.val == 0x85 || c.val == 0xA0
  else
    c.val == 0x1680 || (0x2000 ≤ c.val && c.val ≤ 0x200A) || c.val == 0x2028 ||
      c.val == 0x2029 || c.val == 0x202F || c.val == 0x205F || c.val == 0x3000

/-- `strings.TrimSpace`: drop the leading and the trailing runes that
`unicode.IsSpace` accepts. -/
def trimSpace (s : List Char) : List Char :=
  (s.dropWhile isSpace).rdropWhile isSpace

/-- Dropping trailing runes commutes with dropping leading ones. -/
theorem dropWhile_rdropWhile {α : Type} (p : α → Bool) (l : List α) :
    (l.rdropWhile p).dropWhile p = (l.dropWhile p).rdropWhile p := by
  induction l using List.reverseRecOn with
  | nil => rfl
  | append_singleton l x inductionHypothesis =>
      rw [List.dropWhile_append]
      by_cases hx : p x
      · rw [List.rdropWhile_concat_pos _ _ _ hx, inductionHypothesis]
        split_ifs with gone
        · rw [List.isEmpty_iff.mp gone, List.dropWhile_cons_of_pos hx]
          rfl
        · rw [List.rdropWhile_concat_pos _ _ _ hx]
      · rw [List.rdropWhile_concat_neg _ _ _ hx, List.dropWhile_append]
        split_ifs
        · rw [List.dropWhile_cons_of_neg hx, List.rdropWhile_singleton, if_neg hx]
        · rw [List.rdropWhile_concat_neg _ _ _ hx]

theorem trimSpace_rdropWhile (s : List Char) : trimSpace (s.rdropWhile isSpace) = trimSpace s := by
  unfold trimSpace
  rw [dropWhile_rdropWhile, List.rdropWhile_idempotent]

@[simp] theorem trimSpace_trimSpace (s : List Char) : trimSpace (trimSpace s) = trimSpace s := by
  unfold trimSpace
  rw [dropWhile_rdropWhile, List.dropWhile_idempotent, List.rdropWhile_idempotent]

/-- Trailing runes past a non-space rune are dropped from the tail alone. -/
theorem rdropWhile_append_of_neg {p : Char → Bool} {x : Char} (X Y : List Char) (hx : p x = false) :
    (X ++ x :: Y).rdropWhile p = X ++ x :: Y.rdropWhile p := by
  induction Y using List.reverseRecOn with
  | nil =>
      rw [List.rdropWhile_concat_neg _ _ _ (by simp [hx])]
      rfl
  | append_singleton Y y inductionHypothesis =>
      have framed := List.rdropWhile_concat p (X ++ x :: Y) y
      rw [List.append_assoc, List.cons_append] at framed
      rw [framed, inductionHypothesis, List.rdropWhile_concat]
      split_ifs <;> simp

/-- `TrimSpace` of a text that starts with a non-space rune trims only its tail
past the last non-space rune of a frame. -/
theorem trimSpace_framed {c d : Char} (M Y : List Char) (hc : isSpace c = false)
    (hd : isSpace d = false) :
    trimSpace (c :: M ++ d :: Y) = c :: M ++ d :: Y.rdropWhile isSpace := by
  unfold trimSpace
  rw [List.cons_append, List.dropWhile_cons_of_neg (by simp [hc]), ← List.cons_append,
    rdropWhile_append_of_neg _ _ hd]

/-! ## `Parse` -/

/-- `splitFrontmatter`: the trimmed frontmatter between a leading `---` and the
first `\n---` after it, and everything after that `\n---`. Its error result is
always `nil` and is left out. -/
def splitFrontmatter (content : String) : String × String :=
  let content := trimSpace content.data
  if !"---".data.isPrefixOf content then ("", ⟨content⟩)
  else
    let rest := content.drop 3
    match index "\n---".data rest with
    | none => ("", ⟨content⟩)
    | some idx => (⟨trimSpace (rest.take idx)⟩, ⟨rest.drop (idx + 4)⟩)

theorem marker_data : "\n---".data = ['\n', '-', '-', '-'] :=
  rfl

/-- The first `\n---` of `X ++ "\n---" ++ B` is the one after `X`, when `X`
holds none. -/
theorem index_marker (B : List Char) : ∀ {X : List Char}, ¬ "\n---".data <:+: X →
    index "\n---".data (X ++ "\n---".data ++ B) = some X.length
  | [], _ => by simp [index, marker_data, List.isPrefixOf]
  | c :: X, unmarked => by
      have later := @index_marker B X fun inner => unmarked (List.infix_cons inner)
      have notHere : "\n---".data.isPrefixOf (c :: (X ++ "\n---".data ++ B)) = false := by
        rw [marker_data]
        rcases X with _ | ⟨a, _ | ⟨b, _ | ⟨d, rest⟩⟩⟩ <;> simp [List.isPrefixOf]
        intro hc ha hb hd
        subst hc ha hb hd
        exact unmarked ⟨[], rest, rfl⟩
      show index _ (c :: (X ++ _ ++ B)) = some (X.length + 1)
      rw [index, notHere, later]
      rfl

/-- `splitFrontmatter` reads back a frontmatter written between `---` lines,
when it is trimmed and holds no line starting with `---`; the body loses its
trailing space. -/
theorem splitFrontmatter_render {fm : String} (trimmed : trimSpace fm.data = fm.data)
    (unmarked : ¬ "\n---".data <:+: '\n' :: fm.data) (body : String) :
    splitFrontmatter ("---\n" ++ fm ++ "\n---" ++ body) = (fm, ⟨body.data.rdropWhile isSpace⟩) := by
  have content : trimSpace ("---\n" ++ fm ++ "\n---" ++ body).data =
      '-' :: '-' :: '-' :: ('\n' :: fm.data ++ "\n---".data ++ body.data.rdropWhile isSpace) := by
    have framed := @trimSpace_framed '-' '-' ('-' :: '-' :: '\n' :: fm.data ++ ['\n', '-', '-'])
      body.data rfl rfl
    simp only [List.cons_append, List.append_assoc] at framed
    simpa [marker_data] using framed
  have header : trimSpace ('\n' :: fm.data) = fm.data := by
    unfold trimSpace at trimmed ⊢
    rw [List.dropWhile_cons_of_pos rfl]
    exact trimmed
  have found := index_marker (body.data.rdropWhile isSpace) unmarked
  simp only [marker_data, List.append_assoc] at found
  unfold splitFrontmatter
  simp only [content, List.isPrefixOf, marker_data, beq_self_eq_true, Bool.and_true, Bool.not_true,
    Bool.false_eq_true, if_false, List.drop_succ_cons, List.drop_zero, List.append_assoc, found]
  rw [List.take_left, header, List.drop_append]
  rfl

/-- A value of the `map[string]interface{}` that `yaml.Unmarshal` fills, as far
as `Parse` tells values apart: a string, a list whose items are strings or not,
or anything else. -/
inductive YamlValue
  | str (value : String)
  | list (items : List (Option String))
  | other
  deriving DecidableEq, Repr

/-- `Skill`, with the fields the loaders fill. -/
structure Skill (Sheet : Type) where
  name : String := ""
  description : String := ""
  version : String := ""
  license : String := ""
  tags : List String := []
  instructions : String := ""
  rawFrontmatter : Option (List (String × YamlValue)) := none
  actions : Option Sheet := none
  deriving DecidableEq, Repr

/-- The two uses the package makes of `yaml.Unmarshal`: into a
`map[string]interface{}` and into an `ActionSheet`. -/
structure Yaml (Sheet : Type) where
  toMap : String → Except String (List (String × YamlValue))
  toSheet : String → Except String Sheet

/-- `fm[key].(string)`. -/
def stringField (fm : List (String × YamlValue)) (key : String) : Option String :=
  match fm.lookup key with
  | some (.str value) => some value
  | _ => none

/-- The string items of a list under `tags`. -/
def tagsField (fm : List (String × YamlValue)) : List String :=
  match fm.lookup "tags" with
  | some (.list items) => items.filterMap id
  | _ => []

section Parse

variable {Sheet : Type} (yaml : Yaml Sheet)

/-- What `Parse` takes from a decoded frontmatter. -/
def withFrontmatter (skill : Skill Sheet) (fm : List (String × YamlValue)) : Skill Sheet :=
  { skill with
    rawFrontmatter := some fm
    name := (stringField fm "name").getD skill.name
    description := (stringField fm "description").getD skill.description
    version := (stringField fm "version").getD skill.version
    license := (stringField fm "license").getD skill.license
    tags := skill.tags ++ tagsField fm }

/-- `Parse` once `splitFrontmatter` has cut the content: the trimmed body, and
the decoded frontmatter when there is one. -/
def parseParts (frontmatter body : String) : Except String (Skill Sheet) :=
  let skill : Skill Sheet := { instructions := ⟨trimSpace body.data⟩ }
  if frontmatter = "" then .ok skill
  else
    match yaml.toMap frontmatter with
    | .error err => .error ("invalid YAML frontmatter: " ++ err)
    | .ok fm => .ok (withFrontmatter skill fm)

/-- `Parse`. -/
def parse (content : String) : Except String (Skill Sheet) :=
  parseParts yaml (splitFrontmatter content).1 (splitFrontmatter content).2

/-- `ParseActionSheet`. -/
def parseActionSheet (content : String) : Except String Sheet :=
  match yaml.toSheet content with
  | .error err => .error ("invalid actions.yaml: " ++ err)
  | .ok sheet => .ok sheet

/-- `Parse` reads a `SKILL.md` written as `---`, a trimmed YAML block with no
line that starts with `---`, `---` and a body, as that block and that body. -/
theorem parse_render {fm : String} (trimmed : trimSpace fm.data = fm.data)
    (unmarked : ¬ "\n---".data <:+: '\n' :: fm.data) (body : String) :
    parse yaml ("---\n" ++ fm ++ "\n---" ++ body) = parseParts yaml fm body := by
  unfold parse parseParts
  rw [splitFrontmatter_render trimmed unmarked, trimSpace_rdropWhile]

/-- Content that does not start with `---` once trimmed has no frontmatter:
`Parse` decodes nothing and keeps the whole trimmed content as the
instructions. -/
theorem parse_unframed {content : String}
    (unframed : "---".data.isPrefixOf (trimSpace content.data) = false) :
    parse yaml content = .ok { instructions := ⟨trimSpace content.data⟩ } := by
  unfold parse parseParts splitFrontmatter
  simp only [unframed, Bool.not_false, if_true, trimSpace_trimSpace]

theorem unframed_of_bare {text : List Char} (bare : "name:".data.isPrefixOf text = true) :
    "---".data.isPrefixOf text = false := by
  cases text with
  | nil => cases bare
  | cons c text =>
      simp only [List.isPrefixOf, String.data, Bool.and_eq_true, beq_iff_eq] at bare ⊢
      simp [← bare.1]

/-! ## The loaders -/

/-- `loadBundled`; its error result is always `nil`. -/
def loadBundled (name : String) : Skill Sheet :=
  { name := name
    description := "Bundled skill: " ++ name
    version := "bundled"
    instructions := "(Bundled skill \x27" ++ name ++
      "\x27 — instructions loaded at runtime from embedded filesystem)" }

/-- How `loadFromConfigMap` reads its source: the ConfigMap name, and the key of
the markdown, `SKILL.md` unless a `/` after a non-empty name names another. -/
def configMapRef (source : String) : String × String :=
  let cmRef := trimPrefixOf "configmap://".data source.data
  match index ['/'] cmRef with
  | some idx => if idx > 0 then (⟨cmRef.take idx⟩, ⟨cmRef.drop (idx + 1)⟩) else (⟨cmRef⟩, "SKILL.md")
  | none => (⟨cmRef⟩, "SKILL.md")

/-- A ConfigMap source names the ConfigMap before its first `/` and the key
after it. -/
theorem configMapRef_named {n : String} (named : n ≠ "") (plain : '/' ∉ n.data) (k : String) :
    configMapRef ("configmap://" ++ n ++ "/" ++ k) = (n, k) := by
  have nonempty : 0 < n.data.length :=
    List.length_pos.mpr fun empty => named (String.ext empty)
  unfold configMapRef
  rw [show ("configmap://" ++ n ++ "/" ++ k).data = "configmap://".data ++ (n.data ++ '/' :: k.data)
      by simp, trimPrefixOf_append]
  dsimp only
  rw [index_single _ plain]
  dsimp only
  rw [if_pos nonempty, List.take_left, List.drop_append]
  rfl

theorem configMapRef_plain {n : String} (plain : '/' ∉ n.data) :
    configMapRef ("configmap://" ++ n) = (n, "SKILL.md") := by
  unfold configMapRef
  rw [show ("configmap://" ++ n).data = "configmap://".data ++ n.data from rfl, trimPrefixOf_append]
  dsimp only
  rw [index_single_eq_none plain]

/-- `loadFromConfigMap` once the source is read: fetch the ConfigMap with
`getConfigMap` (`client.Get` in the loader's namespace), parse the markdown
under `mdKey`, and attach `actions.yaml` when the ConfigMap has it. -/
def loadConfigMapKey (getConfigMap : String → Except String (List (String × String)))
    (cmName mdKey : String) : Except String (Skill Sheet) :=
  match getConfigMap cmName with
  | .error err => .error ("failed to load ConfigMap " ++ quote cmName ++ ": " ++ err)
  | .ok data =>
      match data.lookup mdKey with
      | none => .error ("ConfigMap " ++ quote cmName ++ " has no key " ++ quote mdKey)
      | some mdContent =>
          match parse yaml mdContent with
          | .error err =>
              .error ("failed to parse skill from ConfigMap " ++ quote cmName ++ ": " ++ err)
          | .ok skill =>
              match data.lookup "actions.yaml" with
              | none => .ok skill
              | some actionsYAML =>
                  match parseActionSheet yaml actionsYAML with
                  | .error err => .error ("failed to parse actions.yaml from ConfigMap " ++
                      quote cmName ++ ": " ++ err)
                  | .ok sheet => .ok { skill with actions := some sheet }

/-- `loadFromConfigMap`. -/
def loadFromConfigMap (getConfigMap : String → Except String (List (String × String)))
    (source : String) : Except String (Skill Sheet) :=
  loadConfigMapKey yaml getConfigMap (configMapRef source).1 (configMapRef source).2

/-- What `loadFromOCI` meets outside the package: the loader's cache (`none`
when it has none), the registry's `Pull` and `PullToDir`, the temporary
directory, and the two files read from it. -/
structure OCIWorld (Sheet : Type) where
  cache : Option (String → Option (Skill Sheet))
  pull : Except String String
  mkdirTemp : Except String Unit
  pullToDir : Except String Unit
  skillFile : Except String String
  actionsFile : Option String

/-- The name `loadFromOCI` gives a skill whose frontmatter has none. -/
def nameIfMissing (name : String) (skill : Skill Sheet) : Skill Sheet :=
  if skill.name = "" then { skill with name := name } else skill

/-- `loadFromOCI`: the result, and the skill it puts into the cache. -/
def loadFromOCI (world : OCIWorld Sheet) (name source : String) :
    Except String (Skill Sheet) × Option (Skill Sheet) :=
  let refStr : String := ⟨trimPrefixOf "oci://".data source.data⟩
  match parseOCIRef refStr with
  | .error err => (.error ("invalid OCI reference " ++ quote refStr ++ ": " ++ err), none)
  | .ok _ =>
    match world.cache.bind (· source) with
    | some cached => (.ok cached, none)
    | none =>
      match world.pull with
      | .error err => (.error ("pull OCI skill " ++ quote refStr ++ ": " ++ err), none)
      | .ok content =>
        match world.mkdirTemp with
        | .error err => (.error ("create temp dir: " ++ err), none)
        | .ok () =>
          if "---".data.isPrefixOf (trimSpace content.data) ||
              "name:".data.isPrefixOf (trimSpace content.data) then
            match parse yaml content with
            | .error err => (.error ("parse OCI skill " ++ quote refStr ++ ": " ++ err), none)
            | .ok skill => (.ok (nameIfMissing name skill), world.cache.map fun _ => nameIfMissing name skill)
          else
            match world.pullToDir with
            | .error err => (.error ("pull OCI skill to dir " ++ quote refStr ++ ": " ++ err), none)
            | .ok () =>
              match world.skillFile with
              | .error err =>
                  (.error ("read SKILL.md from OCI artifact " ++ quote refStr ++ ": " ++ err), none)
              | .ok md =>
                match parse yaml md with
                | .error err => (.error ("parse OCI skill " ++ quote refStr ++ ": " ++ err), none)
                | .ok skill =>
                  let skill := nameIfMissing name skill
                  let skill := match world.actionsFile.map (parseActionSheet yaml) with
                    | some (.ok sheet) => { skill with actions := some sheet }
                    | _ => skill
                  (.ok skill, world.cache.map fun _ => skill)

/-- An artifact whose content is a bare YAML document, starting with `name:`,
passes `loadFromOCI`'s test for a `SKILL.md`, but `Parse` decodes only a
frontmatter between `---` lines: the skill gets the requested name and the whole
document as its instructions, every field the document declares is dropped, and
that skill is what the cache receives. -/
theorem loadFromOCI_bare_yaml {world : OCIWorld Sheet} {name source content : String}
    {ref : Legator.Skills.OCIRef}
    (parsed : parseOCIRef ⟨trimPrefixOf "oci://".data source.data⟩ = .ok ref)
    (uncached : world.cache.bind (· source) = none) (pulled : world.pull = .ok content)
    (made : world.mkdirTemp = .ok ())
    (bare : "name:".data.isPrefixOf (trimSpace content.data) = true) :
    loadFromOCI yaml world name source =
      (.ok { name := name, instructions := ⟨trimSpace content.data⟩ },
        world.cache.map fun _ => { name := name, instructions := ⟨trimSpace content.data⟩ }) := by
  unfold loadFromOCI
  simp only [parsed, uncached, pulled, made, bare, Bool.or_true, if_true,
    parse_unframed yaml (unframed_of_bare bare)]
  rfl

/-- What `Load` meets outside the package: the ConfigMaps of the loader's
namespace, `loadFromGit` (whose source is not part of the package), and the
registry. -/
structure Sources (Sheet : Type) where
  getConfigMap : String → Except String (List (String × String))
  loadFromGit : String → String → Except String (Skill Sheet)
  oci : OCIWorld Sheet

/-- `Load`: the result, and the skill it puts into the cache. -/
def load (sources : Sources Sheet) (name source : String) :
    Except String (Skill Sheet) × Option (Skill Sheet) :=
  if source = "bundled" then (.ok (loadBundled name), none)
  else if "configmap://".data.isPrefixOf source.data then
    (loadFromConfigMap yaml sources.getConfigMap source, none)
  else if "git://".data.isPrefixOf source.data then (sources.loadFromGit name source, none)
  else if "oci://".data.isPrefixOf source.data then loadFromOCI yaml sources.oci name source
  else if '/' ∈ source.data ∧ (':' ∈ source.data ∨ '@' ∈ source.data) then
    loadFromOCI yaml sources.oci name ("oci://" ++ source)
  else (loadFromConfigMap yaml sources.getConfigMap ("configmap://" ++ source), none)

theorem ne_bundled_of_isPrefixOf_eq {pre source : String} (starts : pre.data.isPrefixOf source.data = true)
    (differs : pre.data.isPrefixOf "bundled".data = false) : source ≠ "bundled" := by
  rintro rfl
  rw [starts] at differs
  cases differs

theorem not_prefix_of_colon {pre s : List Char} (colon : ':' ∈ pre) (noColon : ':' ∉ s) :
    pre.isPrefixOf s = false := by
  rw [Bool.eq_false_iff]
  intro starts
  exact noColon ((List.isPrefixOf_iff_prefix.mp starts).subset colon)

/-- `Load` reads the sources `configmap://n/k` and `configmap://n` as key `k`,
and `SKILL.md`, of ConfigMap `n`. -/
theorem load_configMap {n : String} (named : n ≠ "") (plain : '/' ∉ n.data) (k : String)
    (sources : Sources Sheet) (name : String) :
    load yaml sources name ("configmap://" ++ n ++ "/" ++ k) =
        (loadConfigMapKey yaml sources.getConfigMap n k, none) ∧
      load yaml sources name ("configmap://" ++ n) =
        (loadConfigMapKey yaml sources.getConfigMap n "SKILL.md", none) := by
  have keyed : "configmap://".data.isPrefixOf ("configmap://" ++ n ++ "/" ++ k).data = true :=
    List.isPrefixOf_iff_prefix.mpr ⟨n.data ++ "/".data ++ k.data, by simp⟩
  have whole : "configmap://".data.isPrefixOf ("configmap://" ++ n).data = true :=
    List.isPrefixOf_iff_prefix.mpr (List.prefix_append _ _)
  unfold load loadFromConfigMap
  rw [if_neg (ne_bundled_of_isPrefixOf_eq keyed rfl), if_pos keyed, if_neg (ne_bundled_of_isPrefixOf_eq whole rfl),
    if_pos whole, configMapRef_named named plain, configMapRef_plain plain]
  exact ⟨rfl, rfl⟩

/-- A bare source with a `/` and no `:` or `@`, such as a registry reference
with neither tag nor digest, is a ConfigMap source: `Load` reads `n/k` as key
`k` of ConfigMap `n`. -/
theorem load_bare_configMap {n k : String} (named : n ≠ "") (plain : '/' ∉ n.data)
    (untagged : ':' ∉ n.data ∧ ':' ∉ k.data) (undigested : '@' ∉ n.data ∧ '@' ∉ k.data)
    (sources : Sources Sheet) (name : String) :
    load yaml sources name (n ++ "/" ++ k) = (loadConfigMapKey yaml sources.getConfigMap n k, none) := by
  have data : (n ++ "/" ++ k).data = n.data ++ '/' :: k.data := by simp
  have noColon : ':' ∉ (n ++ "/" ++ k).data := by
    simp [data, untagged.1, untagged.2]
  have noAt : '@' ∉ (n ++ "/" ++ k).data := by
    simp [data, undigested.1, undigested.2]
  have notBundled : n ++ "/" ++ k ≠ "bundled" := fun same => by
    have slash : '/' ∈ (n ++ "/" ++ k).data := by simp [data]
    rw [same] at slash
    exact absurd slash (by decide)
  unfold load loadFromConfigMap
  rw [if_neg notBundled, not_prefix_of_colon (by decide) noColon, not_prefix_of_colon (by decide) noColon,
    not_prefix_of_colon (by decide) noColon]
  simp only [Bool.false_eq_true, if_false, noColon, noAt, false_or, and_false]
  rw [← String.append_assoc, ← String.append_assoc, configMapRef_named named plain]

end Parse

/-! ## A pod-health skill -/

/-- A decoder that reads every frontmatter as `name: pod-health`, and no action
sheet. -/
def podHealthYaml : Yaml Unit :=
  ⟨fun _ => .ok [("name", .str "pod-health")], fun _ => .error "no action sheet"⟩

/-- A namespace whose ConfigMaps hold a `SKILL.md` and nothing else, with no Git
loader and an unreachable registry. -/
def podHealthSources : Sources Unit :=
  ⟨fun _ => .ok [("SKILL.md", "---\nname: pod-health\n---\n# Pod health")],
    fun _ _ => .error "git is not configured",
    ⟨none, .error "unreachable", .error "unused", .error "unused", .error "unused", none⟩⟩

theorem pod_health_frontmatter_read_back :
    trimSpace "name: pod-health".data = "name: pod-health".data ∧
      ¬ "\n---".data <:+: '\n' :: "name: pod-health".data ∧
      parse podHealthYaml ("---\n" ++ "name: pod-health" ++ "\n---" ++ "\n# Pod health\n") =
        parseParts podHealthYaml "name: pod-health" "\n# Pod health\n" :=
  ⟨by decide, by decide, parse_render podHealthYaml (by decide) (by decide) _⟩

theorem skills_configMap_sources :
    "skills" ≠ "" ∧ '/' ∉ "skills".data ∧
      (load podHealthYaml podHealthSources "pod-health" ("configmap://" ++ "skills" ++ "/" ++ "pod.md") =
          (loadConfigMapKey podHealthYaml podHealthSources.getConfigMap "skills" "pod.md", none) ∧
        load podHealthYaml podHealthSources "pod-health" ("configmap://" ++ "skills") =
          (loadConfigMapKey podHealthYaml podHealthSources.getConfigMap "skills" "SKILL.md", none)) :=
  ⟨by decide, by decide,
    load_configMap podHealthYaml (by decide) (by decide) "pod.md" podHealthSources "pod-health"⟩

/-- The registry reference `ghcr.io/org/pod-health`, with no tag, is read as key
`org/pod-health` of ConfigMap `ghcr.io`. -/
theorem tagless_reference_read_as_configMap :
    "ghcr.io" ≠ "" ∧ '/' ∉ "ghcr.io".data ∧
      (':' ∉ "ghcr.io".data ∧ ':' ∉ "org/pod-health".data) ∧
      ('@' ∉ "ghcr.io".data ∧ '@' ∉ "org/pod-health".data) ∧
      load podHealthYaml podHealthSources "pod-health" ("ghcr.io" ++ "/" ++ "org/pod-health") =
        (loadConfigMapKey podHealthYaml podHealthSources.getConfigMap "ghcr.io" "org/pod-health", none) :=
  ⟨by decide, by decide, ⟨by decide, by decide⟩, ⟨by decide, by decide⟩,
    load_bare_configMap podHealthYaml (by decide) (by decide) ⟨by decide, by decide⟩
      ⟨by decide, by decide⟩ podHealthSources "pod-health"⟩

/-- A bare YAML document for the pod-health skill. -/
def podHealthDocument : String :=
  "name: pod-health\ndescription: Checks pods\nversion: 1.0.0\n"

/-- A registry that serves `podHealthDocument`, to a loader with no cache. -/
def podHealthArtifact : OCIWorld Unit :=
  ⟨none, .ok podHealthDocument, .ok (), .error "unused", .error "unused", none⟩

theorem bare_yaml_artifact_loses_fields :
    parseOCIRef ⟨trimPrefixOf "oci://".data "oci://ghcr.io/org/pod-health:1.0".data⟩ =
        .ok ⟨"ghcr.io", "org/pod-health", "1.0", ""⟩ ∧
      podHealthArtifact.cache.bind (· "oci://ghcr.io/org/pod-health:1.0") = none ∧
      podHealthArtifact.pull = .ok podHealthDocument ∧ podHealthArtifact.mkdirTemp = .ok () ∧
      "name:".data.isPrefixOf (trimSpace podHealthDocument.data) = true ∧
      loadFromOCI podHealthYaml podHealthArtifact "pod-health" "oci://ghcr.io/org/pod-health:1.0" =
        (.ok { name := "pod-health", instructions := ⟨trimSpace podHealthDocument.data⟩ }, none) :=
  have parsed : parseOCIRef ⟨trimPrefixOf "oci://".data "oci://ghcr.io/org/pod-health:1.0".data⟩ =
      .ok ⟨"ghcr.io", "org/pod-health", "1.0", ""⟩ := rfl
  have bare : "name:".data.isPrefixOf (trimSpace podHealthDocument.data) = true := by decide
  ⟨parsed, rfl, rfl, rfl, bare, loadFromOCI_bare_yaml podHealthYaml parsed rfl rfl rfl bare⟩

end Legator.Skills
