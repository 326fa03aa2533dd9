/-
  FoxVpn.Plugin.SelectedPlugin
  ────────────────────────────
  **THE SELECTED PLUGIN, PRINTED ALONE.**

  A link and a JSON export carry the options of the selected plugin only:
  `PluginConfiguration(plugin ?: "").getOptions()`, printed on one line.
  Whoever reads the line makes a configuration of it again.

  `selectedOptions_toString_iff`: the line gives the same options back
  exactly if they are printable, in the sense of the round trip of whole
  configurations.  `not_same_of_cut`: a line that is cut short never does.
-/
import Mathlib.Algebra.Ring.Nat
import FoxVpn.Plugin.PluginConfiguration

namespace FoxVpn.Plugin.PluginConfiguration

open FoxVpn.Lib

/-! ## §1. One line. -/

/-- `PluginConfiguration(plugin ?: "").getOptions()`. -/
def selectedOptions (defaultConfig : Str → Option Str) (plugin : Option String) :
    Except Fault PluginOptions :=
  match ofString (plugin.getD "").toList with
  | .error e => .error e
  | .ok cfg => cfg.getOptions cfg.selected defaultConfig

/-- What is selected: nothing, or options that were read from a line. -/
def Selected (o : PluginOptions) : Prop := o = {} ∨ o.id ≠ [] ∧ Parsed o

variable {defaultConfig : Str → Option Str}

/-- Behind the selected id are options of this id. -/
theorem getOptions_selected {t : Str} {cfg : PluginConfiguration} (hcfg : ofString t = .ok cfg)
    (hsel : cfg.selected ≠ []) {o : PluginOptions}
    (h : cfg.getOptions cfg.selected defaultConfig = .ok o) : o.id ≠ [] ∧ Parsed o := by
  have hparsed := ofString_parsed hcfg
  rw [getOptions, if_neg hsel] at h
  -- a selected plugin is in the map
  obtain ⟨o', ho'⟩ := Option.isSome_iff_exists.mp (hparsed.selected hsel)
  rw [ho'] at h
  obtain rfl := Except.ok.inj h
  have hmem := (cfg.pluginsOptions.mem_entries_iff_get _ _).mpr ho'
  exact (hparsed.keyed _ hmem).2

theorem selectedOptions_selected {plugin : Option String} {o : PluginOptions}
    (h : selectedOptions defaultConfig plugin = .ok o) : Selected o := by
  unfold selectedOptions at h
  cases hcfg : ofString (plugin.getD "").toList with
  | error e => rw [hcfg] at h; exact absurd h (by simp)
  | ok cfg =>
      rw [hcfg] at h
      by_cases hsel : cfg.selected = []
      · dsimp only at h
        rw [getOptions, if_pos hsel] at h
        exact Or.inl (Except.ok.inj h).symm
      · exact Or.inr (getOptions_selected hcfg hsel h)

theorem selectedOptions_none : selectedOptions defaultConfig none = .ok {} := rfl

/-- **A single line** selects its own plugin, if it has an id. -/
theorem selectedOptions_line {line : Str} (hl : '\n' ∉ line) :
    selectedOptions defaultConfig (some (String.ofList line))
      = (lineOptions line).map fun o => if o.id = [] then {} else o := by
  rw [selectedOptions, Option.getD_some, String.toList_ofList, ofString, splitOn_of_not_mem hl,
    List.mapM_cons]
  cases lineOptions line with
  | error e => rfl
  | ok o =>
      show (ofPlugins [o]).getOptions o.id defaultConfig = .ok (if o.id = [] then {} else o)
      by_cases hid : o.id = []
      · rw [getOptions, if_pos hid, if_pos hid]
      · have hfilter : [o].filter (fun o => o.id ≠ []) = [o] := by simp [hid]
        have hget : (ofPlugins [o]).pluginsOptions.get o.id = some o := by
          show (LinkedMap.ofList (([o].filter fun o => o.id ≠ []).map fun o => (o.id, o))).get
            o.id = _
          rw [hfilter]
          exact (LinkedMap.get_put _ _ _ _).trans (if_pos rfl)
        rw [getOptions, if_neg hid, if_neg hid, hget]

section Print

variable (defaultConfig : Str → Option Str) (H : PluginOptions.HashOrder) {o : PluginOptions}

theorem newline_not_mem_toString (hid : o.id ≠ []) (h : Parsed o) : '\n' ∉ o.toString H false := by
  have hover := (PluginOptions.forall_toString (by decide) (by decide) (by decide) H hid).mpr h.line
  exact fun hmem => hover '\n' hmem rfl

/-- **The selected plugin, printed and read.** -/
theorem selectedOptions_toString_iff (hid : o.id ≠ []) (h : Parsed o) :
    (∃ o', selectedOptions defaultConfig (some (String.ofList (o.toString H false))) = .ok o'
        ∧ o'.Same o)
      ↔ printable o = true := by
  rw [selectedOptions_line (newline_not_mem_toString H hid h)]
  constructor
  · rintro ⟨o', ho', hsame⟩
    obtain ⟨x, hline, hx⟩ := map_eq_ok.mp ho'
    have hxid : x.id = o.id := by
      rw [← hsame.1, ← hx]
      split
      next hnil => exact hnil
      next => rfl
    refine printable_of_lineOptions H hid h ?_ hline
    -- a legacy line would have the id `kcptun`, which does not begin like one
    by_contra hk
    rw [Bool.not_eq_false] at hk
    rw [lineOptions, isPrefixOf_toString H hid, if_pos hk] at hline
    obtain rfl := Except.ok.inj hline
    rw [← hxid, legacyOptions_id] at hk
    exact absurd hk (by decide)
  · intro hp
    refine ⟨PluginOptions.rearranged H o, ?_, PluginOptions.rearranged_same H o⟩
    rw [lineOptions_toString H hid h hp]
    exact congrArg Except.ok (if_neg hid)

/-! ## §2. The id and the options apart. -/

theorem mem_rearranged {e : Str × Option Str} :
    e ∈ (PluginOptions.rearranged H o).entries ↔ e ∈ o.entries := by
  have hperm := H.perm o.entries
  have hentries : (PluginOptions.rearranged H o).entries = H.arrange o.entries :=
    LinkedMap.entries_ofList ((hperm.map Prod.fst).nodup_iff.mpr o.nodup)
  rw [hentries]
  exact hperm.mem_iff

theorem Parsed.rearranged (h : Parsed o) : Parsed (PluginOptions.rearranged H o) where
  line := ⟨h.line.id, fun e he => h.line.entries e ((mem_rearranged H).mp he)⟩
  readable e he := h.readable e ((mem_rearranged H).mp he)
  id_printable := h.id_printable

theorem printable_rearranged : printable (PluginOptions.rearranged H o) = printable o := by
  have hall : ∀ f : Str × Option Str → Bool,
      (PluginOptions.rearranged H o).entries.all f = o.entries.all f := by
    intro f
    rw [Bool.eq_iff_iff, List.all_eq_true, List.all_eq_true]
    exact forall_congr' fun e => imp_congr_left (mem_rearranged H)
  rw [printable, printable, hall]
  rfl

/-- The options printed without the id pass the check exactly if they would
with it. -/
theorem any_toString_true_iff (h : Parsed o) :
    (o.toString H true).any isISOControl = false
      ↔ (o.entries.all fun e => !e.1.any isISOControl && !(e.2.getD []).any isISOControl)
        = true := by
  have hmem : (∀ e ∈ H.arrange o.entries, PluginOptions.EntryOver (isISOControl · = false) e)
      ↔ ∀ e ∈ o.entries, PluginOptions.EntryOver (isISOControl · = false) e :=
    forall_congr' fun e => imp_congr_left (H.perm o.entries).mem_iff
  have hchars := PluginOptions.forall_foldl_appendEntry (P := fun c => isISOControl c = false)
    (by decide) (by decide) (by decide) (H.arrange o.entries) []
  rw [← over_iff h, List.any_eq_false]
  simp only [Bool.not_eq_true]
  show (∀ c ∈ (H.arrange o.entries).foldl PluginOptions.appendEntry [], isISOControl c = false)
    ↔ _
  rw [hchars, hmem]
  exact ⟨fun ho => ⟨h.id_printable, ho.2⟩, fun ho => ⟨by simp, ho.entries⟩⟩

/-- **The selected plugin, exported as an id and its options**: they are
read, printed on one line, and the line is read. -/
theorem selectedOptions_ofOptions_iff (hid : o.id ≠ []) (h : Parsed o) :
    (∃ r o', PluginOptions.ofOptions o.id (some (o.toString H true)) = .ok r
        ∧ selectedOptions defaultConfig (some (String.ofList (r.toString H false))) = .ok o'
        ∧ o'.Same o)
      ↔ printable o = true := by
  have hagain := selectedOptions_toString_iff defaultConfig H
    (o := PluginOptions.rearranged H o) hid (h.rearranged H)
  have hsame := PluginOptions.rearranged_same H o
  rw [printable_rearranged] at hagain
  rw [← hagain]
  constructor
  · rintro ⟨r, o', hr, ho', hoo'⟩
    obtain ⟨x, hx, -⟩ := map_eq_ok.mp hr
    have hc : (o.toString H true).any isISOControl = false := PluginOptions.any_of_ofText hx
    rw [PluginOptions.ofOptions_toString H h.readable hc] at hr
    obtain rfl := Except.ok.inj hr
    exact ⟨o', ho', hoo'.1.trans hsame.1.symm, fun k => (hoo'.2 k).trans (hsame.2 k).symm⟩
  · rintro ⟨o', ho', hoo'⟩
    have hp := hagain.mp ⟨o', ho', hoo'⟩
    rw [printable, Bool.and_eq_true] at hp
    have hc := (any_toString_true_iff H h).mpr hp.2
    exact ⟨_, o', PluginOptions.ofOptions_toString H h.readable hc, ho', hoo'.1.trans hsame.1,
      fun k => (hoo'.2 k).trans (hsame.2 k)⟩

end Print

end FoxVpn.Plugin.PluginConfiguration

namespace FoxVpn.Plugin.PluginOptions

open FoxVpn.Lib

/-! ## §3. Nothing is read that was not written.

Characters of one kind are counted: reading loses some and adds none,
printing keeps all of them. -/

variable (f : Char → Bool)

def entryCount (e : Str × Option Str) : Nat := e.1.countP f + (e.2.getD []).countP f

def count (o : PluginOptions) : Nat := o.id.countP f + (o.entries.map (entryCount f)).sum

/-- What the loop of the reader holds. -/
def Scan.count (s : Scan) : Nat :=
  s.result.count f + s.current.countP f + (s.key.getD []).countP f

variable {f}

theorem sum_putEntry_le (k : Str) (v : Option Str) : ∀ es : List (Str × Option Str),
    ((LinkedMap.putEntry k v es).map (entryCount f)).sum
      ≤ (es.map (entryCount f)).sum + entryCount f (k, v)
  | [] => by simp [LinkedMap.putEntry]
  | e :: es => by
      have ih := sum_putEntry_le k v es
      rw [LinkedMap.putEntry]
      split
      · simp only [List.map_cons, List.sum_cons]
        omega
      · simp only [List.map_cons, List.sum_cons]
        omega

theorem count_put_le (o : PluginOptions) (k : Str) (v : Option Str) :
    count f { o with toLinkedMap := o.put k v }
      ≤ count f o + (k.countP f + (v.getD []).countP f) := by
  have hsum : _ ≤ _ + (k.countP f + (v.getD []).countP f) := sum_putEntry_le k v o.entries
  show o.id.countP f + ((LinkedMap.putEntry k v o.entries).map (entryCount f)).sum
    ≤ o.id.countP f + (o.entries.map (entryCount f)).sum + _
  omega

namespace Scan

theorem count_append (s : Scan) (t : Str) : (s.append t).count f = s.count f + t.countP f := by
  show s.result.count f + (s.current ++ t).countP f + (s.key.getD []).countP f
    = s.result.count f + s.current.countP f + (s.key.getD []).countP f + t.countP f
  rw [List.countP_append]
  omega

theorem count_equals_le (s : Scan) : s.equals.count f ≤ s.count f + ['='].countP f := by
  unfold equals
  cases hk : s.key with
  | none => simp [count, hk]
  | some key => exact (s.count_append _).le

theorem count_semicolon_le (s : Scan) : s.semicolon.count f ≤ s.count f := by
  unfold semicolon
  cases hk : s.key with
  | some key =>
      have hs : s.count f = s.result.count f + s.current.countP f + key.countP f := by
        rw [count, hk]
        rfl
      refine le_trans (count_put_le s.result key (some s.current)) ?_
      rw [hs, Option.getD_some]
      omega
  | none =>
      have hs : s.count f = s.result.count f + s.current.countP f := by
        rw [count, hk]
        rfl
      rw [hs]
      by_cases hc : s.current = []
      · rw [if_pos hc]
        exact le_refl (s.result.count f + s.current.countP f + 0)
      · rw [if_neg hc]
        by_cases hp : s.parseId = true
        · -- the id that was there is lost
          rw [if_pos hp]
          show s.current.countP f + (s.result.entries.map (entryCount f)).sum + 0 + 0
            ≤ s.result.id.countP f + (s.result.entries.map (entryCount f)).sum + _
          omega
        · rw [if_neg hp]
          exact count_put_le s.result s.current none

/-- The whole loop, by induction on the text. -/
theorem count_scanChars_le : ∀ (t : Str) {s s' : Scan}, scanChars s t = .ok s' →
    s'.count f ≤ s.count f + t.countP f
  | [], s, s', h => by
      obtain rfl := Except.ok.inj h
      exact le_refl _
  | c :: cs, s, s', h => by
      rw [List.countP_cons]
      by_cases hb : c = '\\'
      · subst hb
        cases cs with
        | nil => exact absurd h (by simp [scanChars])
        | cons d ds =>
            rw [scanChars_backslash] at h
            have hrest := count_scanChars_le ds h
            have hone : [d].countP f = if f d then 1 else 0 := List.countP_singleton
            rw [count_append, hone] at hrest
            rw [List.countP_cons]
            omega
      · rw [scanChars_char s hb] at h
        have hone : [c].countP f = if f c then 1 else 0 := List.countP_singleton
        split at h
        next heq =>
          have hrest := count_scanChars_le cs h
          have hstep := count_equals_le (f := f) s
          rw [heq] at hone ⊢
          omega
        next =>
          split at h
          next =>
            have hrest := count_scanChars_le cs h
            have hstep := count_semicolon_le (f := f) s
            omega
          next =>
            have hrest := count_scanChars_le cs h
            rw [count_append] at hrest
            omega

end Scan

/-- What is read from a text. -/
theorem count_ofText_le (hs : f ';' = false) {t : Str} {parseId : Bool} {o : PluginOptions}
    (h : ofText (some t) parseId = .ok o) : count f o ≤ t.countP f := by
  by_cases hne : t = []
  · subst hne
    obtain rfl := Except.ok.inj h
    exact Nat.zero_le _
  · rw [ofText_eq hne (any_of_ofText h)] at h
    obtain ⟨s, hrun, rfl⟩ := map_eq_ok.mp h
    have hcount := Scan.count_scanChars_le (f := f) _ hrun
    have hend : (t ++ [';']).countP f = t.countP f := by
      rw [List.countP_append, List.countP_singleton, hs]
      rfl
    have hstart : Scan.count f { parseId := parseId } = 0 := rfl
    have hresult : s.result.count f ≤ s.count f := by
      rw [Scan.count]
      omega
    omega

section Print

variable (hb : f '\\' = false) (he : f '=' = false) (hs : f ';' = false)

include hb in
theorem countP_escape (str : Str) : (escape str).countP f = str.countP f := by
  induction str with
  | nil => rfl
  | cons c cs ih =>
      rw [escape_cons, List.countP_append, ih, List.countP_cons]
      split
      · rw [List.countP_cons, List.countP_singleton, hb]
        simp [Nat.add_comm]
      · rw [List.countP_singleton, Nat.add_comm]

include hb he in
theorem countP_segment (e : Str × Option Str) : (segment e).countP f = entryCount f e := by
  rw [segment, List.countP_append, countP_escape hb, entryCount]
  cases e.2 with
  | none => rfl
  | some value =>
      rw [List.countP_cons, countP_escape hb, he]
      simp

include hb he hs in
/-- What is printed. -/
theorem countP_toString (H : HashOrder) {o : PluginOptions} (hid : o.id ≠ []) :
    (o.toString H false).countP f = count f o := by
  have hentries : ∀ es : List (Str × Option Str),
      (es.flatMap fun e => ';' :: segment e).countP f = (es.map (entryCount f)).sum := by
    intro es
    induction es with
    | nil => rfl
    | cons e es ih =>
        rw [List.flatMap_cons, List.countP_append, ih, List.countP_cons, countP_segment hb he, hs]
        simp
  rw [toString_eq H hid, List.countP_append, countP_escape hb, hentries, count,
    ((H.perm o.entries).map (entryCount f)).sum_nat]

end Print

/-- The same options hold the same characters. -/
theorem Same.count_eq {o o' : PluginOptions} (h : o.Same o') : count f o = count f o' := by
  have hperm : o.entries.Perm o'.entries := by
    refine (List.perm_ext_iff_of_nodup (List.Nodup.of_map _ o.nodup)
      (List.Nodup.of_map _ o'.nodup)).mpr fun e => ?_
    rw [← Prod.eta e, o.mem_entries_iff_get, o'.mem_entries_iff_get, h.2]
  rw [count, count, h.1, (hperm.map (entryCount f)).sum_nat]

end FoxVpn.Plugin.PluginOptions

namespace FoxVpn.Plugin.PluginConfiguration

open FoxVpn.Lib

/-- **A printed line that is cut short** of a character which is not special
never gives the options back. -/
theorem not_same_of_cut (defaultConfig : Str → Option Str) (H : PluginOptions.HashOrder)
    {o : PluginOptions} (hid : o.id ≠ []) (h : Parsed o) {f : Char → Bool}
    (hb : f '\\' = false) (he : f '=' = false) (hs : f ';' = false) {t w : Str}
    (hcut : o.toString H false = t ++ w) (hw : 0 < w.countP f) :
    ¬ ∃ o', selectedOptions defaultConfig (some (String.ofList t)) = .ok o' ∧ o'.Same o := by
  rintro ⟨o', ho', hsame⟩
  have hl : '\n' ∉ t := fun hmem =>
    newline_not_mem_toString H hid h (hcut ▸ List.mem_append_left w hmem)
  rw [selectedOptions_line hl] at ho'
  obtain ⟨x, hx, hxo⟩ := map_eq_ok.mp ho'
  obtain rfl : x = o' := by
    split at hxo
    next =>
      subst hxo
      exact absurd hsame.1.symm hid
    next => exact hxo
  rw [lineOptions] at hx
  split at hx
  next hk =>
    -- the whole line is a legacy one as well, and has another id
    have hprefix : kcptun.isPrefixOf (o.toString H false) = true := by
      rw [List.isPrefixOf_iff_prefix] at hk ⊢
      exact hcut ▸ hk.trans (List.prefix_append t w)
    rw [isPrefixOf_toString H hid] at hprefix
    obtain rfl := Except.ok.inj hx
    rw [← hsame.1, legacyOptions_id] at hprefix
    exact absurd hprefix (by decide)
  next =>
    have hread := PluginOptions.count_ofText_le (f := f) hs hx
    have hprint := PluginOptions.countP_toString hb he hs H hid
    rw [hcut, List.countP_append, ← hsame.count_eq] at hprint
    omega

end FoxVpn.Plugin.PluginConfiguration
