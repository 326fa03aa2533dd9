/-
  FoxVpn.Plugin.PluginConfiguration
  ─────────────────────────────────
  **PLUGIN CONFIGURATIONS, READ AND PRINTED.**

  A configuration is one line per plugin; the first one is selected.  Two
  grammars feed it:

      kcptun --key value --nocomp …   the LEGACY line, a shell command
      id;key=value;flag               everything else, `PluginOptions`

  but only the second one is printed.  A printed line is dispatched again on
  its raw text and checked again for control characters, which the legacy
  grammar lets in.  Main result `roundTrip_iff`: a configuration that was
  read is printed and read back exactly if no id begins like a legacy line
  and no option holds a control character.
-/
import Mathlib.Data.Option.Defs
import FoxVpn.Lib.Result
import FoxVpn.Plugin.PluginOptions
import FoxVpn.Utils.Commandline

namespace FoxVpn

open FoxVpn.Lib

namespace Plugin

open Utils.Commandline

/-! ## §1. `PluginConfiguration`. -/

structure PluginConfiguration where
  pluginsOptions : LinkedMap Str PluginOptions
  selected : Str
  deriving DecidableEq

namespace PluginConfiguration

def kcptun : Str := "kcptun ".toList

/-- The loop over the parameters of a legacy line.  An exception ends it
and is logged; what was read before stays. -/
def parameters (opt : PluginOptions) : List Str → PluginOptions
  | [] => opt
  | option :: rest =>
      if option = "--nocomp".toList then
        parameters { opt with toLinkedMap := opt.put "nocomp".toList none } rest
      else if "--".toList.isPrefixOf option then
        match rest with
        | [] => opt
        | value :: rest =>
            parameters { opt with toLinkedMap := opt.put (option.drop 2) (some value) } rest
      else opt

/-- The options of a legacy line. -/
def legacyOptions (line : Str) : PluginOptions :=
  match translateCommandline line with
  | .ok args => parameters { id := "kcptun".toList } (args.drop 1)
  | .error _ => { id := "kcptun".toList }

/-- The options of one line. -/
def lineOptions (line : Str) : Except Fault PluginOptions :=
  if kcptun.isPrefixOf line then .ok (legacyOptions line) else PluginOptions.ofString (some line)

/-- The constructor from a list of options. -/
def ofPlugins (plugins : List PluginOptions) : PluginConfiguration where
  pluginsOptions := .ofList ((plugins.filter fun o => o.id ≠ []).map fun o => (o.id, o))
  selected :=
    match plugins with
    | [] => []
    | o :: _ => o.id

/-- `PluginConfiguration(plugin)`. -/
def ofString (plugin : Str) : Except Fault PluginConfiguration :=
  ((plugin.splitOn '\n').mapM lineOptions).map ofPlugins

/-- `getOptions(id, defaultConfig)`. -/
def getOptions (cfg : PluginConfiguration) (id : Str) (defaultConfig : Str → Option Str) :
    Except Fault PluginOptions :=
  if id = [] then .ok {}
  else
    match cfg.pluginsOptions.get id with
    | some o => .ok o
    | none => PluginOptions.ofOptions id (defaultConfig id)

/-- The list `result` of `toString`: the selected plugin in front, the
others behind. -/
def arranged (cfg : PluginConfiguration) : List PluginOptions :=
  cfg.pluginsOptions.entries.foldl
    (fun result e => if e.1 = cfg.selected then e.2 :: result else result ++ [e.2]) []

/-- `toString()`; `defaultConfig` looks up what the installed plugins have
as their default. -/
def toString (H : PluginOptions.HashOrder) (defaultConfig : Str → Option Str)
    (cfg : PluginConfiguration) : Except Fault Str :=
  let result :=
    if (cfg.pluginsOptions.get cfg.selected).isSome then .ok cfg.arranged
    else (cfg.getOptions cfg.selected defaultConfig).map (· :: cfg.arranged)
  result.map fun result => ['\n'].intercalate (result.map fun o => o.toString H false)

/-! ## §2. What reading leaves. -/

/-- What every line leaves: one line of text, entries that can be read back,
an id without control characters. -/
structure Parsed (o : PluginOptions) : Prop where
  line : o.Over (· ≠ '\n')
  readable : ∀ e ∈ o.entries, PluginOptions.Readable e
  id_printable : ∀ c ∈ o.id, isISOControl c = false

theorem Parsed.put {o : PluginOptions} (h : Parsed o) {k : Str} {v : Option Str}
    (hr : PluginOptions.Readable (k, v)) (hl : PluginOptions.EntryOver (· ≠ '\n') (k, v)) :
    Parsed { o with toLinkedMap := o.put k v } := by
  refine ⟨⟨h.line.id, fun e he => ?_⟩, fun e he => ?_, h.id_printable⟩
  · rcases LinkedMap.mem_put he with rfl | he
    · exact hl
    · exact h.line.entries e he
  · rcases LinkedMap.mem_put he with rfl | he
    · exact hr
    · exact h.readable e he

theorem parameters_parsed : ∀ (args : List Str) (o : PluginOptions), Parsed o →
    (∀ arg ∈ args, ∀ c ∈ arg, c ≠ '\n') → Parsed (parameters o args)
  | [], o, h, _ => h
  | option :: rest, o, h, hargs => by
      obtain ⟨hoption, hrest⟩ := List.forall_mem_cons.mp hargs
      rw [parameters.eq_def]
      show Parsed (if _ then _ else _)
      split
      · refine parameters_parsed rest _ (h.put (Or.inl (by decide)) ⟨?_, by simp⟩) hrest
        show ∀ c ∈ ['n', 'o', 'c', 'o', 'm', 'p'], c ≠ '\n'
        simp
      · split
        · cases rest with
          | nil => exact h
          | cons value rest =>
              obtain ⟨hvalue, hrest⟩ := List.forall_mem_cons.mp hrest
              refine parameters_parsed rest _ (h.put (Or.inr (by simp)) ⟨?_, ?_⟩) hrest
              · exact fun c hc => hoption c (List.mem_of_mem_drop hc)
              · intro v hv
                obtain rfl := Option.some.inj hv
                exact hvalue
        · exact h

theorem legacyOptions_parsed {line : Str} (hl : ∀ c ∈ line, c ≠ '\n') :
    Parsed (legacyOptions line) := by
  have hid : Parsed { id := ['k', 'c', 'p', 't', 'u', 'n'] } :=
    ⟨⟨by simp, by simp⟩, by simp, by simp [isISOControl]⟩
  unfold legacyOptions
  split
  next args hargs =>
    refine parameters_parsed _ _ hid fun arg harg => ?_
    exact translateCommandline_over (by decide) hl hargs arg (List.mem_of_mem_drop harg)
  next => exact hid

theorem legacyOptions_id (line : Str) : (legacyOptions line).id = "kcptun".toList := by
  have hparams : ∀ (args : List Str) (o : PluginOptions), (parameters o args).id = o.id := by
    intro args o
    fun_induction parameters o args with
    | case1 => rfl
    | case2 _ _ ih => exact ih
    | case3 => rfl
    | case4 _ _ _ _ _ _ ih => exact ih
    | case5 => rfl
  unfold legacyOptions
  split
  · exact hparams _ _
  · rfl

/-- Every line that is read leaves parsed options. -/
theorem lineOptions_parsed {line : Str} {o : PluginOptions} (hl : '\n' ∉ line)
    (h : lineOptions line = .ok o) : Parsed o := by
  have hchars : ∀ c ∈ line, c ≠ '\n' := fun c hc heq => hl (heq ▸ hc)
  unfold lineOptions at h
  split at h
  next =>
    injection h with h
    subst h
    exact legacyOptions_parsed hchars
  next =>
    obtain ⟨hover, hread⟩ := PluginOptions.ofText_over (by decide) (by decide) hchars h
    refine ⟨⟨fun c hc => (hover.id c hc).1, fun e he => ?_⟩, hread, fun c hc => (hover.id c hc).2⟩
    obtain ⟨hk, hv⟩ := hover.entries e he
    exact ⟨fun c hc => (hk c hc).1, fun v hv' c hc => (hv v hv' c hc).1⟩

/-- A configuration that was read. -/
structure ParsedConfiguration (cfg : PluginConfiguration) : Prop where
  keyed : ∀ e ∈ cfg.pluginsOptions.entries, e.1 = e.2.id ∧ e.2.id ≠ [] ∧ Parsed e.2
  selected : cfg.selected ≠ [] → (cfg.pluginsOptions.get cfg.selected).isSome = true

theorem ofPlugins_parsed {plugins : List PluginOptions} (h : ∀ o ∈ plugins, Parsed o) :
    ParsedConfiguration (ofPlugins plugins) := by
  constructor
  · refine LinkedMap.forall_putAll _ {} (by simp) fun e he => ?_
    obtain ⟨o, ho, rfl⟩ := List.mem_map.mp he
    obtain ⟨hmem, hid⟩ := List.mem_filter.mp ho
    exact ⟨rfl, of_decide_eq_true hid, h o hmem⟩
  · -- the first plugin is among those that were put, if it has an id
    intro hsel
    cases plugins with
    | nil => exact absurd rfl hsel
    | cons o os =>
        refine LinkedMap.isSome_get_putAll _ {} (Or.inr ?_)
        have hmem : o ∈ (o :: os).filter fun o => o.id ≠ [] :=
          List.mem_filter.mpr ⟨List.mem_cons_self, decide_eq_true hsel⟩
        rw [List.map_map]
        exact List.mem_map_of_mem hmem

/-- Every configuration that is read is a parsed one. -/
theorem ofString_parsed {s : Str} {cfg : PluginConfiguration} (h : ofString s = .ok cfg) :
    ParsedConfiguration cfg := by
  unfold ofString at h
  obtain ⟨plugins, hlines, rfl⟩ := map_eq_ok.mp h
  refine ofPlugins_parsed fun o ho => ?_
  obtain ⟨line, hline, hparse⟩ := (mem_of_mapM_ok hlines).1 o ho
  exact lineOptions_parsed (not_mem_of_mem_splitOn hline) hparse

/-! ## §3. What printing arranges. -/

theorem perm_arranged (cfg : PluginConfiguration) :
    cfg.arranged.Perm (cfg.pluginsOptions.entries.map Prod.snd) := by
  suffices h : ∀ (es : List (Str × PluginOptions)) (r : List PluginOptions),
      (es.foldl (fun r e => if e.1 = cfg.selected then e.2 :: r else r ++ [e.2]) r).Perm
        (r ++ es.map Prod.snd) from h _ []
  intro es
  induction es with
  | nil => exact fun r => by simp
  | cons e es ih =>
      intro r
      rw [List.foldl_cons, List.map_cons]
      refine (ih _).trans ?_
      split
      · exact List.perm_middle.symm
      · rw [List.append_assoc, List.singleton_append]

/-- The selected plugin, if it is there, is in front. -/
theorem head_arranged {cfg : PluginConfiguration} (h : ParsedConfiguration cfg)
    (hsel : (cfg.pluginsOptions.get cfg.selected).isSome = true) :
    ∃ o os, cfg.arranged = o :: os ∧ o.id = cfg.selected := by
  suffices hfold : ∀ (es : List (Str × PluginOptions)) (r : List PluginOptions),
      (∀ e ∈ es, e.1 = e.2.id) →
      (∃ o os, r = o :: os ∧ o.id = cfg.selected) ∨ (∃ e ∈ es, e.1 = cfg.selected) →
      ∃ o os, es.foldl (fun r e => if e.1 = cfg.selected then e.2 :: r else r ++ [e.2]) r
        = o :: os ∧ o.id = cfg.selected by
    obtain ⟨o, ho⟩ := Option.isSome_iff_exists.mp hsel
    have hmem := (cfg.pluginsOptions.mem_entries_iff_get _ _).mpr ho
    exact hfold _ [] (fun e he => (h.keyed e he).1) (Or.inr ⟨_, hmem, rfl⟩)
  intro es
  induction es with
  | nil =>
      intro r _ hr
      exact hr.resolve_right (by simp)
  | cons e es ih =>
      intro r hkey hr
      obtain ⟨hkey₁, hkey₂⟩ := List.forall_mem_cons.mp hkey
      rw [List.foldl_cons]
      by_cases he : e.1 = cfg.selected
      · rw [if_pos he]
        exact ih _ hkey₂ (Or.inl ⟨e.2, r, rfl, hkey₁ ▸ he⟩)
      · rw [if_neg he]
        refine ih _ hkey₂ ?_
        rcases hr with ⟨o, os, rfl, ho⟩ | ⟨d, hd, hsel⟩
        · exact Or.inl ⟨o, os ++ [e.2], rfl, ho⟩
        · rcases List.mem_cons.mp hd with rfl | hd
          · exact absurd hsel he
          · exact Or.inr ⟨d, hd, hsel⟩

/-- The lines of a printed configuration. -/
structure Lines (cfg : PluginConfiguration) (ls : List PluginOptions) : Prop where
  /-- The selected plugin is in front. -/
  selected : ∃ o os, ls = o :: os ∧ o.id = cfg.selected
  /-- The others are those of the map, and nothing. -/
  mem : ∀ o ∈ ls, o = {} ∨ o.id ≠ [] ∧ Parsed o
  perm : (ls.filter fun o => o.id ≠ []).Perm (cfg.pluginsOptions.entries.map Prod.snd)

/-- **A configuration that was read is printed**, one line per plugin, with
an empty line in front if no plugin is selected. -/
theorem toString_lines {cfg : PluginConfiguration} (h : ParsedConfiguration cfg)
    (H : PluginOptions.HashOrder) (defaultConfig : Str → Option Str) :
    ∃ ls, Lines cfg ls
      ∧ cfg.toString H defaultConfig
        = .ok (['\n'].intercalate (ls.map fun o => o.toString H false)) := by
  have hperm := perm_arranged cfg
  have hmem : ∀ o ∈ cfg.arranged, o.id ≠ [] ∧ Parsed o := by
    intro o ho
    obtain ⟨e, he, rfl⟩ := List.mem_map.mp (hperm.mem_iff.mp ho)
    exact (h.keyed e he).2
  have hfilter : (cfg.arranged.filter fun o => o.id ≠ []) = cfg.arranged :=
    List.filter_eq_self.mpr fun o ho => decide_eq_true (hmem o ho).1
  by_cases hsel : (cfg.pluginsOptions.get cfg.selected).isSome = true
  · refine ⟨cfg.arranged, ⟨head_arranged h hsel, fun o ho => Or.inr (hmem o ho), ?_⟩, ?_⟩
    · rw [hfilter]
      exact hperm
    · rw [toString, if_pos hsel]
      rfl
  · have hnone : cfg.selected = [] := by
      by_contra hne
      exact hsel (h.selected hne)
    refine ⟨{} :: cfg.arranged, ⟨⟨{}, cfg.arranged, rfl, hnone.symm⟩, ?_, ?_⟩, ?_⟩
    · intro o ho
      rcases List.mem_cons.mp ho with rfl | ho
      · exact Or.inl rfl
      · exact Or.inr (hmem o ho)
    · have hskip : ({} :: cfg.arranged).filter (fun o : PluginOptions => o.id ≠ [])
          = cfg.arranged := by
        rw [List.filter_cons, if_neg (by decide), hfilter]
      rw [hskip]
      exact hperm
    · rw [toString, if_neg hsel, getOptions, if_pos hnone]
      rfl

/-! ## §4. Reading the printed configuration. -/

/-- Escaping hides no beginning without special characters, and adds
none. -/
theorem isPrefixOf_escape {rest : Str} (hrest : rest = [] ∨ ∃ t, rest = ';' :: t) :
    ∀ (w str : Str), (∀ c ∈ w, PluginOptions.isDelim c = false) →
      w.isPrefixOf (PluginOptions.escape str ++ rest) = w.isPrefixOf str
  | [], str, _ => by rw [List.isPrefixOf_nil_left, List.isPrefixOf_nil_left]
  | a :: w, [], hw => by
      rcases hrest with rfl | ⟨t, rfl⟩
      · rfl
      · have ha : (a == ';') = false := by
          rw [beq_eq_false_iff_ne]
          rintro rfl
          exact Bool.noConfusion (hw ';' List.mem_cons_self)
        show (a == ';' && _) = false
        rw [ha, Bool.false_and]
  | a :: w, c :: cs, hw => by
      obtain ⟨ha, hw'⟩ := List.forall_mem_cons.mp hw
      rw [PluginOptions.escape_cons]
      by_cases hc : PluginOptions.isDelim c = true
      · -- an escaped character begins with a backslash, which `a` is not
        have hslash : (a == '\\') = false := by
          rw [beq_eq_false_iff_ne]
          rintro rfl
          exact Bool.noConfusion ha
        have hne : (a == c) = false := by
          rw [beq_eq_false_iff_ne]
          rintro rfl
          exact Bool.noConfusion (ha.symm.trans hc)
        rw [if_pos hc]
        show (a == '\\' && _) = (a == c && _)
        rw [hslash, hne, Bool.false_and, Bool.false_and]
      · rw [if_neg hc]
        show (a == c && w.isPrefixOf (PluginOptions.escape cs ++ rest)) = (a == c && _)
        rw [isPrefixOf_escape hrest w cs hw']

/-- A printed line looks like a legacy line exactly if its id does. -/
theorem isPrefixOf_toString (H : PluginOptions.HashOrder) {o : PluginOptions} (hid : o.id ≠ []) :
    kcptun.isPrefixOf (o.toString H false) = kcptun.isPrefixOf o.id := by
  rw [PluginOptions.toString_eq H hid]
  have hplain : ∀ c ∈ ['k', 'c', 'p', 't', 'u', 'n', ' '], PluginOptions.isDelim c = false := by
    simp [PluginOptions.isDelim]
  refine isPrefixOf_escape ?_ kcptun o.id hplain
  cases H.arrange o.entries with
  | nil => exact Or.inl rfl
  | cons e es => exact Or.inr ⟨_, rfl⟩

/-- Options whose printed line is read by the grammar it was printed in and
passes the check for control characters. -/
def printable (o : PluginOptions) : Bool :=
  !kcptun.isPrefixOf o.id
    && o.entries.all fun e => !e.1.any isISOControl && !(e.2.getD []).any isISOControl

/-- The control characters of parsed options are in their entries. -/
theorem over_iff {o : PluginOptions} (h : Parsed o) :
    o.Over (fun c => isISOControl c = false)
      ↔ (o.entries.all fun e => !e.1.any isISOControl && !(e.2.getD []).any isISOControl)
        = true := by
  have hentry : ∀ e : Str × Option Str,
      PluginOptions.EntryOver (fun c => isISOControl c = false) e
        ↔ (!e.1.any isISOControl && !(e.2.getD []).any isISOControl) = true := by
    intro e
    rw [PluginOptions.EntryOver, Bool.and_eq_true]
    cases e.2 with
    | none => simp
    | some value => simp
  rw [List.all_eq_true]
  constructor
  · exact fun ho e he => (hentry e).mp (ho.entries e he)
  · exact fun ho => ⟨h.id_printable, fun e he => (hentry e).mpr (ho e he)⟩

section Line

variable (H : PluginOptions.HashOrder) {o : PluginOptions} (hid : o.id ≠ []) (h : Parsed o)

include hid

/-- The check of a printed line. -/
theorem any_toString_iff :
    (o.toString H false).any isISOControl = false
      ↔ o.Over (fun c => isISOControl c = false) := by
  rw [← PluginOptions.forall_toString (by decide) (by decide) (by decide) H hid, List.any_eq_false]
  simp only [Bool.not_eq_true]

include h

/-- **One printed line, read again.** -/
theorem lineOptions_toString (hp : printable o = true) :
    lineOptions (o.toString H false) = .ok (PluginOptions.rearranged H o) := by
  rw [printable, Bool.and_eq_true, Bool.not_eq_true'] at hp
  rw [lineOptions, isPrefixOf_toString H hid, hp.1, if_neg Bool.false_ne_true]
  exact PluginOptions.ofString_toString H h.readable hid
    ((any_toString_iff H hid).mpr ((over_iff h).mpr hp.2))

/-- A printed line that does not look like a legacy line was either read
back or refused. -/
theorem printable_of_lineOptions {o' : PluginOptions} (hk : kcptun.isPrefixOf o.id = false)
    (hline : lineOptions (o.toString H false) = .ok o') : printable o = true := by
  rw [printable, hk, Bool.not_false, Bool.true_and, ← over_iff h, ← any_toString_iff H hid]
  rw [lineOptions, isPrefixOf_toString H hid, hk, if_neg Bool.false_ne_true] at hline
  exact PluginOptions.any_of_ofText hline

end Line

/-- The same selected plugin and the same options under every id. -/
def Same (c c' : PluginConfiguration) : Prop :=
  c.selected = c'.selected
    ∧ ∀ id, Option.Rel PluginOptions.Same (c.pluginsOptions.get id) (c'.pluginsOptions.get id)

variable (H : PluginOptions.HashOrder) {cfg : PluginConfiguration} {ls : List PluginOptions}

/-- The printed lines are cut where they were joined. -/
theorem splitOn_lines (hls : Lines cfg ls) :
    (['\n'].intercalate (ls.map fun o => o.toString H false)).splitOn '\n'
      = ls.map fun o => o.toString H false := by
  refine List.splitOn_intercalate '\n' ?_ ?_
  · intro l hl hmem
    obtain ⟨o, ho, rfl⟩ := List.mem_map.mp hl
    rcases hls.mem o ho with rfl | ⟨hid, hparsed⟩
    · exact absurd hmem List.not_mem_nil
    · have hover := (PluginOptions.forall_toString (by decide) (by decide) (by decide) H hid).mpr
        hparsed.line
      exact hover '\n' hmem rfl
  · obtain ⟨o, os, rfl, -⟩ := hls.selected
    exact List.cons_ne_nil _ _

/-- **Printable lines give the configuration back.** -/
theorem same_of_printable (h : ParsedConfiguration cfg) (hls : Lines cfg ls)
    (hp : ∀ e ∈ cfg.pluginsOptions.entries, printable e.2 = true) :
    ∃ cfg', ofString (['\n'].intercalate (ls.map fun o => o.toString H false)) = .ok cfg'
      ∧ cfg'.Same cfg := by
  have hprint : ∀ o ∈ ls, o.id ≠ [] → printable o = true := by
    intro o ho hid
    have hmem : o ∈ cfg.pluginsOptions.entries.map Prod.snd :=
      hls.perm.mem_iff.mp (List.mem_filter.mpr ⟨ho, decide_eq_true hid⟩)
    obtain ⟨e, he, rfl⟩ := List.mem_map.mp hmem
    exact hp e he
  have hline : ∀ o ∈ ls, lineOptions (o.toString H false) = .ok (PluginOptions.rearranged H o) := by
    intro o ho
    rcases hls.mem o ho with rfl | ⟨hid, hparsed⟩
    · have hnil : H.arrange [] = [] := (H.perm []).eq_nil
      rw [PluginOptions.rearranged, hnil]
      rfl
    · exact lineOptions_toString H hid hparsed (hprint o ho hid)
  have hlines : (ls.map fun o => o.toString H false).mapM lineOptions
      = .ok (ls.map (PluginOptions.rearranged H)) := by
    rw [mapM_ok_iff, List.forall₂_map_left_iff, List.forall₂_map_right_iff]
    exact List.forall₂_same.mpr hline
  refine ⟨ofPlugins (ls.map (PluginOptions.rearranged H)), ?_, ?_, fun id => ?_⟩
  · rw [ofString, splitOn_lines H hls, hlines]
    rfl
  · obtain ⟨o, os, rfl, hsel⟩ := hls.selected
    exact hsel
  · -- the map is the old one with every value reread
    have hentries : (((ls.map (PluginOptions.rearranged H)).filter fun o => o.id ≠ []).map
        fun o => (o.id, o)).Perm
          (cfg.pluginsOptions.mapValues (PluginOptions.rearranged H)).entries := by
      have hkeyed : (cfg.pluginsOptions.mapValues (PluginOptions.rearranged H)).entries
          = (cfg.pluginsOptions.entries.map Prod.snd).map
              fun o => (o.id, PluginOptions.rearranged H o) := by
        rw [List.map_map]
        refine List.map_congr_left fun e he => ?_
        rw [(h.keyed e he).1]
        rfl
      rw [hkeyed, List.filter_map, List.map_map]
      exact hls.perm.map _
    have hget : (ofPlugins (ls.map (PluginOptions.rearranged H))).pluginsOptions.get id
        = (cfg.pluginsOptions.get id).map (PluginOptions.rearranged H) := by
      rw [← LinkedMap.get_mapValues]
      exact LinkedMap.get_ofList_of_perm hentries id
    rw [hget]
    cases cfg.pluginsOptions.get id with
    | none => exact Option.Rel.none
    | some o => exact Option.Rel.some (PluginOptions.rearranged_same H o)

/-- **A configuration that comes back was printable**: a line that looks
like a legacy one loses its id, and a control character is refused. -/
theorem printable_of_same (h : ParsedConfiguration cfg) (hls : Lines cfg ls)
    {cfg' : PluginConfiguration}
    (hread : ofString (['\n'].intercalate (ls.map fun o => o.toString H false)) = .ok cfg')
    (hsame : cfg'.Same cfg) : ∀ e ∈ cfg.pluginsOptions.entries, printable e.2 = true := by
  rw [ofString, splitOn_lines H hls] at hread
  obtain ⟨plugins, hlines, rfl⟩ := map_eq_ok.mp hread
  obtain ⟨hright, hleft⟩ := mem_of_mapM_ok hlines
  intro e he
  obtain ⟨hkey, hid, hparsed⟩ := h.keyed e he
  -- its id comes back with some line
  have hback : ∃ o ∈ plugins, o.id = e.2.id := by
    have hrel := hsame.2 e.1
    rw [(cfg.pluginsOptions.mem_entries_iff_get e.1 e.2).mp he] at hrel
    cases hget : (ofPlugins plugins).pluginsOptions.get e.1 with
    | none => rw [hget] at hrel; cases hrel
    | some o =>
        rw [hget] at hrel
        cases hrel with
        | some hso =>
            have hmem := (LinkedMap.mem_entries_iff_get _ _ _).mpr hget
            refine ⟨o, ?_, hso.1⟩
            exact LinkedMap.forall_putAll (P := fun d => d.2 ∈ plugins) _ {} (by simp)
              (fun d hd => by
                obtain ⟨o, ho, rfl⟩ := List.mem_map.mp hd
                exact (List.mem_filter.mp ho).1) _ hmem
  have hk : kcptun.isPrefixOf e.2.id = false := by
    by_contra hk
    rw [Bool.not_eq_false] at hk
    obtain ⟨o, ho, hoid⟩ := hback
    obtain ⟨l, hl, hlo⟩ := hright o ho
    obtain ⟨q, hq, rfl⟩ := List.mem_map.mp hl
    rcases hls.mem q hq with rfl | ⟨hqid, hqparsed⟩
    · obtain rfl := Except.ok.inj hlo
      exact hid hoid.symm
    · by_cases hqk : kcptun.isPrefixOf q.id = true
      · -- a legacy line has the id `kcptun`
        rw [lineOptions, isPrefixOf_toString H hqid, if_pos hqk] at hlo
        obtain rfl := Except.ok.inj hlo
        rw [legacyOptions_id] at hoid
        rw [← hoid] at hk
        exact absurd hk (by decide)
      · -- any other line has its own
        rw [Bool.not_eq_true] at hqk
        have hqp := printable_of_lineOptions H hqid hqparsed hqk hlo
        rw [lineOptions_toString H hqid hqparsed hqp] at hlo
        obtain rfl := Except.ok.inj hlo
        rw [← hoid] at hk
        exact Bool.noConfusion (hk.symm.trans hqk)
  have hmem : e.2 ∈ ls :=
    (List.mem_filter.mp (hls.perm.mem_iff.mpr (List.mem_map_of_mem he))).1
  obtain ⟨o', hline⟩ := hleft _ (List.mem_map_of_mem hmem)
  exact printable_of_lineOptions H hid hparsed hk hline

/-- **Which configurations survive being printed and read again.**  For
every text that is read, in whatever order the hash maps are printed: it is
printed, read without an exception and gives the same selected plugin and
the same options, if and only if no id begins with the word and the blank
of a legacy line and no option has a control character in its key or
value. -/
theorem roundTrip_iff (defaultConfig : Str → Option Str) (s : Str)
    (h : ofString s = .ok cfg) :
    (∃ printed cfg', cfg.toString H defaultConfig = .ok printed
        ∧ ofString printed = .ok cfg' ∧ cfg'.Same cfg)
      ↔ ∀ e ∈ cfg.pluginsOptions.entries, printable e.2 = true := by
  have hparsed := ofString_parsed h
  obtain ⟨ls, hls, hprint⟩ := toString_lines hparsed H defaultConfig
  constructor
  · rintro ⟨printed, cfg', hprinted, hread, hsame⟩
    obtain rfl := Except.ok.inj (hprint.symm.trans hprinted)
    exact printable_of_same H hparsed hls hread hsame
  · intro hp
    obtain ⟨cfg', hread, hsame⟩ := same_of_printable H hparsed hls hp
    exact ⟨_, cfg', hprint, hread, hsame⟩

/-- A hash map iterated as it was filled. -/
def insertionOrder : PluginOptions.HashOrder := ⟨fun es => es, fun _ => List.Perm.refl _⟩

/-- The hypothesis is met: a legacy line, a duplicate id and a line without
an id come back. -/
theorem roundTrip_mixed :
    ∃ cfg, ofString "v2ray;tls;path=\\;a\nkcptun --key k --nocomp\n=x\nv2ray;host=b".toList = .ok cfg
      ∧ ∃ printed cfg', cfg.toString insertionOrder (fun _ => none) = .ok printed
        ∧ ofString printed = .ok cfg' ∧ cfg'.Same cfg := by
  obtain ⟨cfg, hread, hprintable⟩ := exists_of_test
    (r := ofString "v2ray;tls;path=\\;a\nkcptun --key k --nocomp\n=x\nv2ray;host=b".toList)
    (fun cfg => cfg.pluginsOptions.entries.all fun e => printable e.2) (by decide +kernel)
  exact ⟨cfg, hread, (roundTrip_iff insertionOrder (fun _ => none) _ hread).mpr
    (List.all_eq_true.mp hprintable)⟩

/-- **Two configurations that do not come back.**  A tab in a legacy line is
accepted, printed as an option and then refused; and a plugin whose id was
written `kcptun\ fec` is printed as a legacy line and read as the plugin
`kcptun`. -/
theorem roundTrip_legacy_fails :
    (∃ cfg, ofString "kcptun --key a\tb".toList = .ok cfg
        ∧ cfg.toString insertionOrder (fun _ => none) = .ok "kcptun;key=a\tb".toList
        ∧ ofString "kcptun;key=a\tb".toList
          = .error (.illegalState "No control characters allowed."))
      ∧ ∃ cfg cfg', ofString "kcptun\\ fec".toList = .ok cfg
        ∧ cfg.toString insertionOrder (fun _ => none) = .ok "kcptun fec".toList
        ∧ ofString "kcptun fec".toList = .ok cfg'
        ∧ cfg.selected = "kcptun fec".toList ∧ cfg'.selected = "kcptun".toList := by
  constructor
  · obtain ⟨cfg, hread, hprint⟩ := exists_of_test (r := ofString "kcptun --key a\tb".toList)
      (fun cfg => decide (cfg.toString insertionOrder (fun _ => none)
        = .ok "kcptun;key=a\tb".toList)) (by decide +kernel)
    exact ⟨cfg, hread, of_decide_eq_true hprint, by decide +kernel⟩
  · obtain ⟨cfg, hread, hprint⟩ := exists_of_test (r := ofString "kcptun\\ fec".toList)
      (fun cfg => decide (cfg.toString insertionOrder (fun _ => none) = .ok "kcptun fec".toList
        ∧ cfg.selected = "kcptun fec".toList)) (by decide +kernel)
    obtain ⟨cfg', hread', hsel'⟩ := exists_of_test (r := ofString "kcptun fec".toList)
      (fun cfg => decide (cfg.selected = "kcptun".toList)) (by decide +kernel)
    obtain ⟨hprint, hsel⟩ := of_decide_eq_true hprint
    exact ⟨cfg, cfg', hread, hprint, hread', hsel, of_decide_eq_true hsel'⟩

end PluginConfiguration

end Plugin

end FoxVpn
