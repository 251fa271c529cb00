import CellReplay.Config.Server
import CellReplay.Proofs.Config.Precedence
import CellReplay.Proofs.Service.Confined
import CellReplay.Proofs.Text.Encoding
import CellReplay.Proofs.Text.Spelled
import CellReplay.Proofs.Toml.Printing

/-!
# Proofs.Config.Settings

From a file to the settings of the interpreter that it names. The name of a table comes out in lower
case, the name of the default interpreter as it stands, and the settings are looked for under the latter.

* `Unset`            — no variable sets a property.
* `Configures`       — what a file says about an interpreter.
* `configuringText`  — a file that says just this, for any name, timeout and separator.
* `settings_loaded`  — the settings reach an interpreter whose name is in lower case, and no other.
* `settings_lost`    — a name with a capital letter.
-/

namespace CellReplay.Config

open Text CellReplay.Config.Tree

variable {f : Files} {cwd : List String} {vars : Table String String} {home : String}
  {file : List (String × Tree)} {q : List String} {name separator v : String} {timeout : Nat}

/-! ## Without variables -/

def Unset (vars : Table String String) : Prop :=
  ∀ n, (vars.get? n).isSome → keyOfVariable n = none

namespace Unset

variable (h : Unset vars)

include h

theorem not_setBy : ¬ SetBy vars q v := by
  rintro ⟨segments, hseg, -, -⟩
  have hkey := keyOfVariable_variableOf hseg.letters
  rw [h _ hseg.there] at hkey
  cases hkey

theorem apart : Apart vars where
  letters n hn hkey := by
    rw [h n hn] at hkey
    cases hkey
  apart segments others hseg _ _ := by
    have hkey := keyOfVariable_variableOf hseg.letters
    rw [h _ hseg.there] at hkey
    cases hkey

theorem free : Free vars q := fun _ _ hset => absurd hset h.not_setBy

end Unset

/-- Under a path stands what prevails there. -/
theorem exists_properties (hnames : Named Bare lowercase (table file)) (hvars : Unset vars) :
    ∃ p, propertiesOf [defaultLayer, file, environmentLayer vars] = p ∧
      ∀ q v, BarePath q → (p.get? (join "." q) = some v ↔ Prevails vars file q v) := by
  obtain ⟨t, hproperties, hnamed, hat⟩ := exists_merged hnames hvars.apart
  refine ⟨_, hproperties, fun q v hq => ?_⟩
  rw [get?_flatten_iff hnamed, ← hat q v hq]
  constructor
  · rintro ⟨path, hpath, hjoin, htext⟩
    rwa [(hq.join_inj hpath).mp hjoin]
  · exact fun htext => ⟨q, hq, rfl, htext⟩

/-- The path of what stands in a file has no capital letters. -/
theorem lowercase_of_at? {t u : Tree} (h : Named Bare lowercase t) (hu : t.at? q = some u) :
    ∀ n ∈ q, lowercase n = n := by
  induction q generalizing t with
  | nil => exact fun n hn => nomatch hn
  | cons k q ih =>
    rw [at?] at hu
    obtain ⟨t', hlookup, hu'⟩ := Option.bind_eq_some_iff.mp hu
    cases h with
    | scalar s => cases hlookup
    | list => cases hlookup
    | table _ names inside =>
      refine List.forall_mem_cons.mpr ⟨?_, ih (Named.of_lookup inside hlookup) hu'⟩
      obtain ⟨e, he, heq⟩ := List.mem_map.mp (mem_of_lookup hlookup)
      cases heq
      exact (names e he).lowercase_lowercase

/-! ## What a file says -/

/-- A file names the default interpreter and has a timeout and a separator in the table of that name.
What it says about the port and about the first session can be read. -/
structure Configures (file : List (String × Tree)) (name : String) (timeout : Nat)
    (separator : String) : Prop where
  named : Named Bare lowercase (table file)
  chosen : (table file).at? ["default", "interpreter", "name"] = some (scalar name)
  limit : (table file).at? ["interpreter", lowercase name, "timeout"] =
    some (scalar (decimal timeout))
  between : (table file).at? ["interpreter", lowercase name, "separator"] = some (scalar separator)
  port : ∀ v, (table file).at? ["server", "port"] = some (scalar v) →
    ∃ n, readNat maxUInt16 v.toList = .ok n
  session : ∀ v, (table file).at? ["default", "session", "id"] = some (scalar v) →
    v = "" ∨ ∃ i, SessionId.read v.toList = .ok i

/-- The names in such a file, but for that of the interpreter. -/
def names : List String := ["default", "interpreter", "name", "timeout", "separator"]

theorem bare_names : ∀ n ∈ names, Bare n := by decide

theorem lowercase_names : ∀ n ∈ names, lowercase n = n := by
  have hsmall : ∀ n ∈ names, n.toList.map Char.toLower = n.toList := by decide
  exact fun n hn => lowercase_eq_self (bare_names n hn).ascii (hsmall n hn)

/-- The lines of a file that says nothing else. -/
def configuringLines (name : String) (timeout : Nat) (separator : String) : List Toml.Line :=
  [.header ["default"] "interpreter", .text "name" name, .header ["interpreter"] name,
    .text "timeout" (decimal timeout), .text "separator" separator]

def configuringText (name : String) (timeout : Nat) (separator : String) : List Char :=
  (configuringLines name timeout separator).flatMap Toml.Line.print

def configuring (name : String) (timeout : Nat) (separator : String) : List (String × Tree) := [
  ("default", table [("interpreter", table [("name", scalar name)])]),
  ("interpreter", table [(name, table [("timeout", scalar (decimal timeout)),
    ("separator", scalar separator)])])]

theorem ofStatements_configuring (name : String) (timeout : Nat) (separator : String) :
    (Toml.ofStatements ((configuringLines name timeout separator).map Toml.Line.statement)).map
      treesOf = some (configuring name timeout separator) := by
  simp [configuringLines, Toml.Line.statement, Toml.ofStatements, Toml.Building.follow,
    Toml.changeAt, Toml.putPair, Toml.openTable, lookup, replace, Toml.toValues, Toml.Item.toValue,
    treesOf, treeOf, configuring]

theorem sound_configuringLines (hname : Letters name) (timeout : Nat) (separator : String) :
    ∀ l ∈ configuringLines name timeout separator, l.Sound := by
  have hinterpreter := bare_names "interpreter" (by decide)
  intro l hl
  simp only [configuringLines, List.mem_cons, List.not_mem_nil, or_false] at hl
  rcases hl with rfl | rfl | rfl | rfl | rfl
  · exact ⟨List.forall_mem_cons.mpr ⟨bare_names "default" (by decide),
      List.forall_mem_singleton.mpr hinterpreter⟩, by decide⟩
  · exact bare_names "name" (by decide)
  · exact ⟨List.forall_mem_cons.mpr ⟨hinterpreter, List.forall_mem_singleton.mpr hname.bare⟩,
      by decide⟩
  · exact bare_names "timeout" (by decide)
  · exact bare_names "separator" (by decide)

/-- For every name, timeout and separator there is a file that says this. -/
theorem fileLayer_configuring (hname : Letters name) (timeout : Nat) (separator : String) :
    fileLayer (Utf8.encode (configuringText name timeout separator)) =
      some (configuring name timeout separator) := by
  have hparse := Toml.parse_print (sound_configuringLines hname timeout separator)
  have hlossy := Utf8.decodeLossy_encode (configuringText name timeout separator)
  obtain ⟨bs, hbs⟩ : ∃ bs, Utf8.encode (configuringText name timeout separator) = 0x5B :: bs := by
    obtain ⟨cs, hcs⟩ : ∃ cs, configuringText name timeout separator = '[' :: cs := ⟨_, rfl⟩
    rw [hcs, Utf8.encode_cons]
    exact ⟨_, rfl⟩
  -- the first character is no mark of the encoding
  have hlayer : fileLayer (0x5B :: bs) =
      (Toml.parse (String.ofList (Utf8.decodeLossy (0x5B :: bs)))).map treesOf := rfl
  rw [hbs, hlayer, ← hbs, hlossy, configuringText, hparse]
  exact ofStatements_configuring name timeout separator

theorem named_single {k : String} {t : Tree} (hk : Bare k) (ht : Named Bare lowercase t) :
    Named Bare lowercase (table [(k, t)]) :=
  .table (List.nodup_singleton _) (List.forall_mem_singleton.mpr hk) (List.forall_mem_singleton.mpr ht)

theorem named_pair {k n : String} {t u : Tree} (hk : Bare k) (hn : Bare n)
    (hne : lowercase k ≠ lowercase n) (ht : Named Bare lowercase t) (hu : Named Bare lowercase u) :
    Named Bare lowercase (table [(k, t), (n, u)]) := by
  refine .table (List.nodup_cons.mpr ⟨by simpa using hne, List.nodup_singleton _⟩) ?_ ?_
  · exact List.forall_mem_cons.mpr ⟨hk, List.forall_mem_singleton.mpr hn⟩
  · exact List.forall_mem_cons.mpr ⟨ht, List.forall_mem_singleton.mpr hu⟩

theorem configures_configuring (hname : Letters name) (timeout : Nat) (separator : String) :
    Configures (configuring name timeout separator) name timeout separator := by
  have hdefault := lowercase_names "default" (by decide)
  have hinterpreter := lowercase_names "interpreter" (by decide)
  have hkey := lowercase_names "name" (by decide)
  have htimeout := lowercase_names "timeout" (by decide)
  have hseparator := lowercase_names "separator" (by decide)
  have hbare {n : String} (hn : n ∈ names) := bare_names n hn
  refine ⟨?_, ?_, ?_, ?_, ?_, ?_⟩
  · refine named_pair (hbare (by decide)) (hbare (by decide)) ?_ ?_ ?_
    · rw [hdefault, hinterpreter]
      decide
    · exact named_single (hbare (by decide)) (named_single (hbare (by decide)) (.scalar _))
    · refine named_single hname.bare
        (named_pair (hbare (by decide)) (hbare (by decide)) ?_ (.scalar _) (.scalar _))
      rw [htimeout, hseparator]
      decide
  · simp [at?, configuring, entries, lowered, lookup, hdefault, hinterpreter, hkey]
  · simp [at?, configuring, entries, lowered, lookup, hdefault, hinterpreter, htimeout]
  · simp [at?, configuring, entries, lowered, lookup, hdefault, hinterpreter, htimeout, hseparator]
  · intro v hv
    simp [at?, configuring, entries, lowered, lookup, hdefault, hinterpreter] at hv
  · intro v hv
    simp [at?, configuring, entries, lowered, lookup, hdefault, hinterpreter] at hv

/-! ## What is loaded -/

section

variable (hvars : Unset vars) (h : Configures file name timeout separator) {p : Properties}
  (hp : ∀ q v, BarePath q → (p.get? (join "." q) = some v ↔ Prevails vars file q v))

include hvars hp

theorem get?_of_at? (hq : BarePath q) (hat : (table file).at? q = some (scalar v)) :
    p.get? (join "." q) = some v := (hp q v hq).mpr (.file hvars.free hat)

/-- What is neither a default nor at this path of the file is not there. -/
theorem get?_eq_none (hq : BarePath q) (hfile : ∀ v, (table file).at? q ≠ some (scalar v))
    (hdefault : ∀ s ∈ defaults, s.1 ≠ q) : p.get? (join "." q) = none := by
  refine Option.eq_none_iff_forall_ne_some.mpr fun v hv => ?_
  rcases (hp q v hq).mp hv with hset | ⟨-, hat⟩ | ⟨-, -, hthere⟩
  · exact hvars.not_setBy hset
  · exact hfile v hat
  · exact hdefault _ ((mem_defaults_iff hq).mpr hthere) rfl

include h

/-- A property in the scope of the default interpreter is what the file says about it, if the name is in
lower case; if not, there is none. -/
theorem property_settingsFor_name {n : String} (hname : Letters name) (hn : Bare n)
    (hat : (table file).at? ["interpreter", lowercase name, n] = some (scalar v)) :
    (p.settingsFor name).property n = if lowercase name = name then some v else none := by
  have hpath : BarePath ["interpreter", name, n] :=
    ⟨List.cons_ne_nil _ _, List.forall_mem_cons.mpr ⟨bare_names _ (by decide),
      List.forall_mem_cons.mpr ⟨hname.bare, List.forall_mem_singleton.mpr hn⟩⟩⟩
  have hkey : "interpreter." ++ name ++ "." ++ n = join "." ["interpreter", name, n] := by
    rw [show "interpreter." = "interpreter" ++ "." from rfl]
    simp only [join, String.append_assoc]
  rw [get?_settingsFor, hkey]
  split
  · next hlower =>
    rw [hlower] at hat
    exact get?_of_at? hvars hp hpath hat
  · next hlower =>
    refine get?_eq_none hvars hp hpath (fun u hu => hlower ?_) fun s hs he => ?_
    · exact lowercase_of_at? h.named hu name (by simp)
    · have hheads : ∀ s ∈ defaults, s.1.head? ≠ some "interpreter" := by decide
      exact hheads s hs (by rw [he]; rfl)

theorem timeoutMs_settingsFor_name (hname : Letters name) (hfits : timeout ≤ maxUInt64) :
    (p.settingsFor name).timeoutMs =
      if lowercase name = name then timeout else Settings.defaultTimeoutMs := by
  have hproperty := property_settingsFor_name hvars h hp hname (bare_names "timeout" (by decide))
    h.limit
  rw [Settings.timeoutMs, hproperty]
  split
  · have htrim : trim (decimal timeout).toList = (decimal timeout).toList := by
      refine trim_eq_self fun c hc => isBlank_isDigit ?_
      rw [decimal, String.toList_ofList] at hc
      exact isDigit_toDigits hc
    rw [Option.bind_some, htrim, readNat_decimal hfits]
    rfl
  · rfl

theorem separatorOr_settingsFor_name (hname : Letters name) (default : String) :
    (p.settingsFor name).separatorOr default =
      if lowercase name = name then separator else default := by
  have hproperty := property_settingsFor_name hvars h hp hname (bare_names "separator" (by decide))
    h.between
  rw [Settings.separatorOr, hproperty]
  split <;> rfl

theorem exists_portOf : ∃ n, ServerConfig.portOf p = .ok n := by
  have hpath : BarePath ["server", "port"] := by decide
  rw [ServerConfig.portOf]
  cases hport : p.get? portKey with
  | none => exact ⟨_, rfl⟩
  | some raw =>
    have hread : ∃ n, readNat maxUInt16 raw.toList = .ok n := by
      rcases (hp _ raw hpath).mp hport with hset | ⟨-, hat⟩ | ⟨-, -, hthere⟩
      · exact absurd hset hvars.not_setBy
      · exact h.port raw hat
      · have hmem := (mem_defaults_iff hpath).mpr hthere
        have hraw : raw = decimal defaultPort := by simpa [defaults] using hmem
        exact ⟨9528, by rw [hraw]; decide⟩
    obtain ⟨n, hn⟩ := hread
    exact ⟨n, by simp only [hn]; rfl⟩

theorem exists_defaultSessionOf : ∃ i?, ServerConfig.defaultSessionOf p = .ok i? := by
  have hpath : BarePath ["default", "session", "id"] := by decide
  rw [ServerConfig.defaultSessionOf]
  cases hsession : p.get? sessionKey with
  | none => exact ⟨_, rfl⟩
  | some raw =>
    have hread : raw = "" ∨ ∃ i, SessionId.read raw.toList = .ok i := by
      rcases (hp _ raw hpath).mp hsession with hset | ⟨-, hat⟩ | ⟨-, -, hthere⟩
      · exact absurd hset hvars.not_setBy
      · exact h.session raw hat
      · have hmem := (mem_defaults_iff hpath).mpr hthere
        simp [defaults] at hmem
    rcases hread with rfl | ⟨i, hi⟩
    · exact ⟨_, rfl⟩
    · have hne : raw ≠ "" := by
        rintro rfl
        cases hi
      refine ⟨some i, ?_⟩
      split
      · next he => cases he
      · next he => exact absurd (Option.some.inj he) hne
      · next he =>
        cases he
        rw [hi]
        rfl

theorem exists_serverConfig {path : String}
    (hpath : path = expandHome home ((vars.get? fileVariable).getD defaultFile))
    (hload : loadProperties f cwd vars (some path) = some p) :
    ∃ c, loadServerConfig f cwd vars home = .ok c ∧ c.defaultContext.name = name ∧
      c.properties = p := by
  obtain ⟨port, hport⟩ := exists_portOf hvars h hp
  obtain ⟨i?, hsession⟩ := exists_defaultSessionOf hvars h hp
  have hchosen : p.get? nameKey = some name := get?_of_at? hvars hp (by decide) h.chosen
  have hconfig : ∃ c, ServerConfig.ofProperties home p = .ok c ∧ c.defaultContext.name = name ∧
      c.properties = p := by
    simp only [ServerConfig.ofProperties, hport, hsession, hchosen]
    exact ⟨_, rfl, rfl, rfl⟩
  have hserver : loadServerConfig f cwd vars home = ServerConfig.ofProperties home p := by
    subst hpath
    unfold loadServerConfig
    simp only [hload]
  rw [hserver]
  exact hconfig

end

/-- What the interpreter that a file names gets of the settings in the table of that name. -/
theorem exists_settings {path : String} (hname : Letters name) (hfits : timeout ≤ maxUInt64)
    (hvars : Unset vars) (hpath : path = expandHome home ((vars.get? fileVariable).getD defaultFile))
    (hfile : Reads f cwd (some path) file) (h : Configures file name timeout separator) :
    ∃ c, loadServerConfig f cwd vars home = .ok c ∧ c.defaultContext.name = name ∧
      (c.properties.settingsFor c.defaultContext.name).timeoutMs =
        (if lowercase name = name then timeout else Settings.defaultTimeoutMs) ∧
      ∀ default, (c.properties.settingsFor c.defaultContext.name).separatorOr default =
        if lowercase name = name then separator else default := by
  obtain ⟨p, hproperties, hp⟩ := exists_properties h.named hvars
  have hload := hfile.loadProperties vars
  rw [hproperties] at hload
  obtain ⟨c, hc, hchosen, rfl⟩ := exists_serverConfig hvars h hp hpath hload
  refine ⟨c, hc, hchosen, ?_⟩
  rw [hchosen]
  exact ⟨timeoutMs_settingsFor_name hvars h hp hname hfits,
    separatorOr_settingsFor_name hvars h hp hname⟩

/-- For every name, timeout and separator there is a file that says this. Where no variable sets anything,
a file that says it is read, and the default interpreter has the name as it stands. It has the timeout and
the separator if the name is in lower case; else it has neither. -/
theorem settings_loaded (hname : Letters name) (hfits : timeout ≤ maxUInt64) (separator : String) :
    (∃ file, fileLayer (Utf8.encode (configuringText name timeout separator)) = some file ∧
      Configures file name timeout separator) ∧
    ∀ (f : Files) (cwd : List String) (vars : Table String String) (home path : String)
      (file : List (String × Tree)), Unset vars →
      path = expandHome home ((vars.get? fileVariable).getD defaultFile) →
      Reads f cwd (some path) file → Configures file name timeout separator →
        ∃ c, loadServerConfig f cwd vars home = .ok c ∧ c.defaultContext.name = name ∧
          (c.properties.settingsFor c.defaultContext.name).timeoutMs =
            (if lowercase name = name then timeout else Settings.defaultTimeoutMs) ∧
          ∀ default, (c.properties.settingsFor c.defaultContext.name).separatorOr default =
            if lowercase name = name then separator else default := by
  refine ⟨⟨_, fileLayer_configuring hname timeout separator,
    configures_configuring hname timeout separator⟩, ?_⟩
  intro f cwd vars home path file hvars hpath hfile h
  exact exists_settings hname hfits hvars hpath hfile h

namespace Sample

def configuredFiles (name : String) (timeout : Nat) (separator : String) : Files :=
  ⟨Table.ofList [(["n.toml"], .file (Utf8.encode (configuringText name timeout separator)))]⟩

def onlyPath : Table String String :=
  Table.ofList [("HOME", "/home"), ("NOTEBOOK_CONFIG", "/n.toml")]

theorem unset : Unset onlyPath := by
  intro n hn
  have hmem : n ∈ ["HOME", "NOTEBOOK_CONFIG"] := (Table.mem_keys_iff onlyPath n).mpr hn
  rcases List.mem_pair.mp hmem with rfl | rfl <;> decide

theorem reads_configured (hname : Letters name) (timeout : Nat) (separator : String) :
    Reads (configuredFiles name timeout separator) [] (some "/n.toml")
      (configuring name timeout separator) :=
  .sound rfl (fileLayer_configuring hname timeout separator)

end Sample

theorem settings_loaded_shell :
    Letters "shell" ∧ 250 ≤ maxUInt64 ∧ Unset Sample.onlyPath ∧
      ∃ c, loadServerConfig (Sample.configuredFiles "shell" 250 "; ") [] Sample.onlyPath "/home" =
          .ok c ∧
        (c.properties.settingsFor c.defaultContext.name).timeoutMs = 250 ∧
        (c.properties.settingsFor c.defaultContext.name).separatorOr "|" = "; " := by
  have hname : Letters "shell" := by decide +kernel
  have hfits : 250 ≤ maxUInt64 := by decide
  have hlower : lowercase "shell" = "shell" := by decide +kernel
  obtain ⟨-, hsettings⟩ := settings_loaded hname hfits "; "
  obtain ⟨c, hc, -, htimeout, hseparator⟩ := hsettings _ [] Sample.onlyPath "/home" "/n.toml" _
    Sample.unset (by decide +kernel) (Sample.reads_configured hname 250 "; ")
    (configures_configuring hname 250 "; ")
  rw [if_pos hlower] at htimeout
  exact ⟨hname, hfits, Sample.unset, c, hc, htimeout, by rw [hseparator, if_pos hlower]⟩

/-- The settings of an interpreter whose name has a capital letter do not reach it. -/
theorem settings_lost : ∃ (f : Files) (vars : Table String String) (file : List (String × Tree))
    (c : ServerConfig), Unset vars ∧ Reads f [] (some "/n.toml") file ∧ Letters "Shell" ∧
      Configures file "Shell" 250 "; " ∧ loadServerConfig f [] vars "/home" = .ok c ∧
      c.defaultContext.name = "Shell" ∧
      (c.properties.settingsFor c.defaultContext.name).timeoutMs ≠ 250 ∧
      (c.properties.settingsFor c.defaultContext.name).separatorOr "|" ≠ "; " := by
  have hname : Letters "Shell" := by decide +kernel
  have hcapital : lowercase "Shell" ≠ "Shell" := by decide +kernel
  have hconfigures := configures_configuring hname 250 "; "
  have hreads := Sample.reads_configured hname 250 "; "
  have hpath : "/n.toml" =
      expandHome "/home" ((Sample.onlyPath.get? fileVariable).getD defaultFile) := by decide +kernel
  obtain ⟨c, hc, hchosen, htimeout, hseparator⟩ := exists_settings hname (by decide) Sample.unset
    hpath hreads hconfigures
  refine ⟨_, Sample.onlyPath, _, c, Sample.unset, hreads, hname, hconfigures, hc, hchosen, ?_, ?_⟩
  · rw [htimeout, if_neg hcapital]
    decide
  · rw [hseparator, if_neg hcapital]
    decide

end CellReplay.Config
