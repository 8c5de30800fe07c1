import Minutes.Proofs.Command.Configured
import Minutes.Proofs.Toml.Document

/-!
A configuration that has been written is read back, and one that has been written in part is
completed with the defaults, key by key.
-/
namespace Minutes
open Files

namespace Toml

/-- What sections have under a key of one of them. -/
def valueIn (sections : List Section) (name key : String) : Option String :=
  (sections.find? (·.name = name)).bind (·.entries.lookup key)

theorem find?_of_mem {sections : List Section} (hdistinct : (sections.map (·.name)).Nodup)
    {s : Section} (h : s ∈ sections) : sections.find? (·.name = s.name) = some s := by
  obtain ⟨before, after, rfl⟩ := List.append_of_mem h
  refine List.find?_eq_some_iff_append.mpr ⟨by simp, before, after, rfl, fun t ht => ?_⟩
  rw [List.map_append] at hdistinct
  have hne := (List.nodup_append.mp hdistinct).2.2 _ (List.mem_map_of_mem ht) s.name
    List.mem_cons_self
  simpa using hne

theorem lookup_map_sections (f : Section → Item) (sections : List Section) (name : String) :
    (sections.map fun s => (s.name, f s)).lookup name =
      (sections.find? (·.name = name)).map f := by
  induction sections with
  | nil => rfl
  | cons s sections ih =>
    rw [List.map_cons, List.lookup_cons, List.find?_cons]
    by_cases hs : s.name = name
    · simp [hs]
    · have hne : (name == s.name) = false := beq_false_of_ne (Ne.symm hs)
      simp [hs, hne, ih]

theorem Section.get?_table (s : Section) (key : String) :
    s.table.get? key = (s.entries.lookup key).map fun text => .value (.string text) := by
  show (s.entries.map textItem).lookup key = _
  induction s.entries with
  | nil => rfl
  | cons e entries ih =>
    rw [List.map_cons, textItem, List.lookup_cons, List.lookup_cons, ih]
    split <;> rfl

end Toml

namespace Config
open Toml

/-- What a configuration has under a key of a section. -/
def value? (c : Config) (name key : String) : Option String := valueIn c.sections name key

/-- Sections that hold some of the keys of a configuration, with their values, in any order. -/
structure Part (c : Config) (given : List Section) : Prop where
  distinct : (given.map (·.name)).Nodup
  sections : ∀ s ∈ given, ∃ t ∈ c.sections, s.name = t.name ∧ s.entries ⊆ t.entries ∧
    (s.entries.map (·.1)).Nodup

instance (c : Config) (given : List Section) : Decidable (c.Part given) :=
  decidable_of_iff
    ((given.map (·.name)).Nodup ∧ ∀ s ∈ given, ∃ t ∈ c.sections, s.name = t.name ∧
      s.entries ⊆ t.entries ∧ (s.entries.map (·.1)).Nodup)
    ⟨fun h => ⟨h.1, h.2⟩, fun h => ⟨h.distinct, h.sections⟩⟩

/-- All sections that a configuration may have, with the fields of each. -/
def knownFields : List (String × List String) :=
  [("meeting", meetingFields), ("page", pageFields), ("email", mailFields),
   ("announce", postFields)]

theorem sublist_pathEntry (name : String) (path : Option Path) :
    ((pathEntry name path).map (·.1)).Sublist [name] := by
  cases path with
  | none => exact List.nil_sublist _
  | some path => exact List.Sublist.refl _

/-- The keys of a section stand in the order of its fields. -/
theorem exists_knownFields {c : Config} {s : Section} (h : s ∈ c.sections) :
    ∃ fields, (s.name, fields) ∈ knownFields ∧ (s.entries.map (·.1)).Sublist fields := by
  simp only [sections, List.mem_cons, List.not_mem_nil, or_false] at h
  rcases h with rfl | rfl | rfl | rfl
  · refine ⟨meetingFields, by simp [knownFields], ?_⟩
    rw [List.map_append]
    exact (List.Sublist.refl _).append (sublist_pathEntry _ _)
  · refine ⟨pageFields, by simp [knownFields], ?_⟩
    rw [List.map_append, List.map_append]
    exact ((sublist_pathEntry _ _).append (sublist_pathEntry _ _)).append (sublist_pathEntry _ _)
  · exact ⟨mailFields, by simp [knownFields], List.Sublist.refl _⟩
  · exact ⟨postFields, by simp [knownFields], List.Sublist.refl _⟩

theorem wellNamed_of_mem {c : Config} {s : Section} (h : s ∈ c.sections) : s.WellNamed := by
  have hknown : ∀ known ∈ knownFields,
      IsBare known.1 ∧ (∀ key ∈ known.2, IsBare key) ∧ known.2.Nodup := by decide
  obtain ⟨fields, hmem, hsub⟩ := exists_knownFields h
  obtain ⟨hname, hkeys, hdistinct⟩ := hknown _ hmem
  exact ⟨hname, fun e he => hkeys _ (hsub.subset (List.mem_map_of_mem he)), hsub.nodup hdistinct⟩

theorem part_self (c : Config) : c.Part c.sections := by
  refine ⟨?_, fun s hs => ⟨s, hs, rfl, List.Subset.refl _, (wellNamed_of_mem hs).distinct⟩⟩
  simp [sections]

theorem Part.wellNamed {c : Config} {given : List Section} (h : c.Part given) :
    ∀ s ∈ given, s.WellNamed := by
  intro s hs
  obtain ⟨t, ht, hname, hsub, hdistinct⟩ := h.sections s hs
  have hwell := wellNamed_of_mem ht
  exact ⟨hname ▸ hwell.name, fun e he => hwell.keys e (hsub he), hdistinct⟩

/-- The part of a configuration has the values of the configuration. -/
theorem Part.value?_eq {c : Config} {given : List Section} (h : c.Part given)
    {name key value : String} (hvalue : valueIn given name key = some value) :
    c.value? name key = some value := by
  obtain ⟨s, hfind, hlookup⟩ := Option.bind_eq_some_iff.mp hvalue
  have hname : s.name = name := by simpa using List.find?_some hfind
  obtain ⟨t, ht, hsame, hsub, -⟩ := h.sections s (List.mem_of_find?_eq_some hfind)
  obtain ⟨before, after, hentries, -⟩ := List.lookup_eq_some_iff.mp hlookup
  have hentry : (key, value) ∈ t.entries := by
    apply hsub
    rw [hentries]
    simp
  have hfound := find?_of_mem (part_self c).distinct ht
  rw [← hsame, hname] at hfound
  rw [Config.value?, valueIn, hfound]
  exact Store.lookup_of_mem (wellNamed_of_mem ht).distinct hentry

/-- The fields of a table for a section are its entries under the names that it may have. -/
theorem fieldsOfTable?_table (names : List String) (s : Section) :
    fieldsOfTable? names s.table =
      some (names.filterMap fun name => (s.entries.lookup name).map (name, ·)) := by
  unfold fieldsOfTable?
  simp only [Section.get?_table]
  induction names with
  | nil => rfl
  | cons name names ih =>
    rw [List.filterMap_cons, List.filterMap_cons]
    cases s.entries.lookup name with
    | none => simpa using ih
    | some text =>
      simp only [Option.map_some] at ih ⊢
      rw [List.mapM_cons, ih]
      rfl

theorem lookup_filterMap_names (f : String → Option String) (names : List String) (key : String) :
    (names.filterMap fun name => (f name).map (name, ·)).lookup key =
      if key ∈ names then f key else none := by
  induction names with
  | nil => rfl
  | cons name names ih =>
    rw [List.filterMap_cons]
    by_cases hkey : key = name
    · subst hkey
      cases hf : f key with
      | none => simp [hf, ih]
      | some text => simp
    · have hne : (key == name) = false := beq_false_of_ne hkey
      cases hf : f name with
      | none => simp [hkey, ih]
      | some text => simp [hkey, hne, ih, List.lookup_cons]

/-- The fields of a section of a document are what its sections have there. -/
theorem fields?_sections (names : List String) (given : List Section) (name : String) :
    ∃ fields, fields? names
        ((Table.mk .header (given.map fun s => (s.name, .table s.table))).get? name) =
          some fields ∧
      ∀ key ∈ names, fields.lookup key = valueIn given name key := by
  show ∃ fields, fields? names ((given.map _).lookup name) = some fields ∧ _
  rw [lookup_map_sections fun s => .table s.table]
  unfold valueIn
  cases given.find? (·.name = name) with
  | none => exact ⟨[], rfl, fun key _ => rfl⟩
  | some s =>
    refine ⟨_, fieldsOfTable?_table names s, fun key hkey => ?_⟩
    rw [lookup_filterMap_names, if_pos hkey]
    rfl

theorem lookup_cons_eq {k v : String} (entries : List (String × String)) (key : String) :
    ((k, v) :: entries).lookup key = if key = k then some v else entries.lookup key := by
  by_cases h : key = k
  · rw [h, List.lookup_cons_self, if_pos rfl]
  · rw [List.lookup_cons, beq_false_of_ne h, if_neg h]

theorem lookup_pathEntry (name : String) (path : Option Path) (key : String) :
    (pathEntry name path).lookup key = if key = name then path else none := by
  cases path with
  | none => simp [pathEntry]
  | some path => exact lookup_cons_eq [] key

/-- All keys of a configuration, with the fields that they stand for. -/
theorem value?_eq (c : Config) (name key : String) :
    c.value? name key =
      if name = "meeting" then
        if key = "group" then some c.settings.group
        else if key = "minutes_base_url" then some c.settings.baseUrl
        else if key = "roster_path" then c.roster else none
      else if name = "page" then
        if key = "header_path" then c.page.header
        else if key = "footer_path" then c.page.footer
        else if key = "index_intro_path" then c.page.indexIntro else none
      else if name = "email" then
        if key = "to" then some c.mail.recipient
        else if key = "from" then some c.mail.sender
        else if key = "subject" then some c.mail.subject
        else if key = "body" then some c.mail.body else none
      else if name = "announce" then
        if key = "body" then some c.post else none
      else none := by
  have hfind (s : Section) (rest : List Section) :
      (s :: rest).find? (·.name = name) = if name = s.name then some s else
        rest.find? (·.name = name) := by
    by_cases h : name = s.name
    · simp [h]
    · simp [h, Ne.symm h]
  unfold value? valueIn sections
  simp only [hfind, List.find?_nil]
  split_ifs <;> simp_all [lookup_cons_eq, lookup_pathEntry, List.lookup_append]

/-- A document with a part of a configuration is read as the configuration that has the values of
the part, and the defaults everywhere else. -/
theorem read?_part {c : Config} {given : List Section} (h : c.Part given) :
    ∃ loaded, read? (documentText given) = some loaded ∧ ∀ name key,
      loaded.value? name key = (valueIn given name key).or (({} : Config).value? name key) := by
  obtain ⟨meeting, hm, hmeeting⟩ := fields?_sections meetingFields given "meeting"
  obtain ⟨page, hp, hpage⟩ := fields?_sections pageFields given "page"
  obtain ⟨mail, ha, hmail⟩ := fields?_sections mailFields given "email"
  obtain ⟨post, ho, hpost⟩ := fields?_sections postFields given "announce"
  refine ⟨ofFields meeting page mail post, ?_, fun name key => ?_⟩
  · rw [read?, document?_documentText h.wellNamed h.distinct, Option.bind_some, ofTable?]
    simp only [hm, hp, ha, ho]
    rfl
  · have hunknown : c.value? name key = none → valueIn given name key = none := by
      intro hnone
      by_contra hsome
      obtain ⟨value, hvalue⟩ := Option.ne_none_iff_exists'.mp hsome
      rw [h.value?_eq hvalue] at hnone
      cases hnone
    -- A known key stands for one field on both sides; under any other key nothing is given.
    rw [value?_eq] at hunknown
    rw [value?_eq, value?_eq]
    simp only [ofFields]
    split_ifs at hunknown ⊢ <;> subst_vars <;>
      simp_all [meetingFields, pageFields, mailFields, postFields, Option.or_some]

/-- A configuration is known by its values. -/
theorem eq_of_value?_eq {a b : Config} (h : ∀ name key, a.value? name key = b.value? name key) :
    a = b := by
  have hmeeting := And.intro (h "meeting" "group") (And.intro (h "meeting" "minutes_base_url")
    (h "meeting" "roster_path"))
  have hpage := And.intro (h "page" "header_path") (And.intro (h "page" "footer_path")
    (h "page" "index_intro_path"))
  have hmail := And.intro (And.intro (h "email" "to") (h "email" "from"))
    (And.intro (h "email" "subject") (h "email" "body"))
  have hpost := h "announce" "body"
  simp only [value?_eq] at hmeeting hpage hmail hpost
  rcases a with ⟨⟨_, _⟩, _, ⟨_, _, _⟩, ⟨_, _, _, _⟩, _⟩
  rcases b with ⟨⟨_, _⟩, _, ⟨_, _, _⟩, ⟨_, _, _, _⟩, _⟩
  simp_all

/-- What a configuration leaves out has no default. -/
theorem value?_or_default (c : Config) (name key : String) :
    (c.value? name key).or (({} : Config).value? name key) = c.value? name key := by
  rw [value?_eq, value?_eq]
  split_ifs <;> simp

/-- A document with a whole configuration is read as that configuration. -/
theorem read?_text (c : Config) : read? c.text = some c := by
  obtain ⟨loaded, hread, hvalues⟩ := read?_part (part_self c)
  obtain rfl : loaded = c := eq_of_value?_eq fun name key => by
    rw [hvalues]
    exact value?_or_default c name key
  exact hread

end Config

namespace Command
open Noted Toml

theorem run_namedConfig {store : Store} {path : Path} {text : String} {config : Config}
    (htext : store.read path = .ok text) (hread : Config.read? text = some config)
    (notes : List Note) :
    (namedConfig store path).run notes = (.ok config, notes ++ [.loadedConfig path]) := by
  rw [namedConfig, if_pos (Store.exists?_of_read htext), readConfig, htext]
  simp only [orFail, pure_bind, hread]
  rfl

theorem read_of_saveConfig {store saved : Store} {path : Path} {config : Config}
    (h : (saveConfig store path config).Returns saved) : saved.read path = .ok config.text := by
  obtain ⟨folders, l, -, hl, rfl⟩ := saveConfig_returns h
  obtain ⟨htarget, hfolder⟩ := Store.target_of_writable hl
  exact Store.read_put_text hfolder htarget config.text

/-- A configuration is loaded as it has been saved, and one that has been saved in part is completed
with the defaults, key by key. -/
theorem load_saved_config (c : Config) (path : Path) :
    (∀ store saved, (saveConfig store path c).Returns saved →
      ∀ notes, ((namedConfig saved path).run notes).1 = .ok c) ∧
    ∀ store given, c.Part given → store.read path = .ok (documentText given) →
      ∃ loaded : Config, (∀ notes, ((namedConfig store path).run notes).1 = .ok loaded) ∧
        ∀ name key,
          loaded.value? name key = (valueIn given name key).or (({} : Config).value? name key) := by
  constructor
  · intro store saved hsaved notes
    rw [run_namedConfig (read_of_saveConfig hsaved) (Config.read?_text c)]
  · intro store given hpart htext
    obtain ⟨loaded, hread, hvalues⟩ := Config.read?_part hpart
    refine ⟨loaded, fun notes => ?_, hvalues⟩
    rw [run_namedConfig htext hread]

theorem load_saved_config_quoted :
    let c : Config :=
      { settings := { group := "\r\"'''\\", baseUrl := "'it\"" }, roster := some "C:\\people.json"
        mail := { subject := "\n\n\"Minutes\"\n", body := "\x00\x7f\t" }, post := "\n'''\r\n" }
    let given : List Section :=
      [⟨"email", [("subject", c.mail.subject)]⟩, ⟨"page", []⟩,
        ⟨"meeting", [("roster_path", "C:\\people.json")]⟩]
    let store : Store := { entries := [(["part"], .file (documentText given).toUTF8)] }
    (∃ saved, (saveConfig store "home/config.toml" c).Returns saved ∧
      ((namedConfig saved "home/config.toml").run []).1 = .ok c) ∧
    c.Part given ∧ ∃ loaded : Config, ((namedConfig store "part").run []).1 = .ok loaded ∧
      loaded.value? "email" "subject" = some c.mail.subject ∧
      loaded.value? "email" "body" = some ({} : MailTemplate).body := by
  intro c given store
  have hsaves : ((saveConfig store "home/config.toml" c).run []).1.toOption.isSome = true := by
    decide +kernel
  obtain ⟨saved, hsaved⟩ := Option.isSome_iff_exists.mp hsaves
  have hreturns : (saveConfig store "home/config.toml" c).Returns saved :=
    ⟨[], Store.toOption_eq_some_iff.mp hsaved⟩
  have hpart : c.Part given := by decide +kernel
  have hfile : store.read "part" = .ok (documentText given) :=
    Store.toOption_eq_some_iff.mp (by decide +kernel)
  refine ⟨⟨saved, hreturns, (load_saved_config c _).1 store saved hreturns []⟩, hpart, ?_⟩
  obtain ⟨loaded, hloaded, hvalues⟩ := (load_saved_config c "part").2 store given hpart hfile
  refine ⟨loaded, hloaded [], ?_, ?_⟩
  · rw [hvalues]
    decide +kernel
  · rw [hvalues]
    decide +kernel

end Command
end Minutes
