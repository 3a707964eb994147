import CodeIndex.Language.Registry
import CodeIndex.Proofs.Keyed
import CodeIndex.Proofs.Text.Order
import Mathlib.Data.List.Induction
import Mathlib.Data.List.Nodup
/-!
# The latest registration decides

A registry is what some registrations made of it, one after the other. `routing_latest`: the files
with an extension belong to the language that listed it last, and a language has the factory that
was registered for it last, whatever the order in which languages were replaced and extensions were
taken over. No extension leads to a language without a factory, and each one belongs to exactly one
language.

Factories and routes are put into two tables apart. What ties them together is that a registration
brings the factory for all the extensions it takes (`IsOrderly`).
-/

namespace CodeIndex.Language

open CodeIndex.Keyed CodeIndex.Text

/-! ### Registrations -/

/-- The extensions that a factory lists, in lower case. -/
def Factory.claims (f : Factory) : List String :=
  f.extensions.map asciiLowercase

/-- The factory lists the extension of the path, in any ASCII case. -/
def Factory.Lists (f : Factory) (path : String) : Prop :=
  ∃ ext, Path.extension? path = some ext ∧ asciiLowercase ext ∈ f.claims

/-- The factory has the property and none that was registered after it has. -/
def IsLatest (p : Factory → Prop) (fs : List Factory) (f : Factory) : Prop :=
  ∃ before after, fs = before ++ f :: after ∧ p f ∧ ∀ g ∈ after, ¬ p g

/-- The registry after some registrations, the latest of them last. -/
def Registry.ofFactories (fs : List Factory) : Registry :=
  fs.foldl Registry.register .empty

variable {p : Factory → Prop} {fs : List Factory} {f g : Factory} {l ext path : String}

theorem not_isLatest_nil : ¬ IsLatest p [] f := by
  rintro ⟨before, after, split, -⟩
  simp at split

/-- One more registration is the latest if it has the property, and else changes nothing. -/
theorem isLatest_concat_iff :
    IsLatest p (fs ++ [g]) f ↔ p g ∧ f = g ∨ ¬ p g ∧ IsLatest p fs f := by
  constructor
  · rintro ⟨before, after, split, hf, hlater⟩
    -- `f` is the last one itself, or the last one is behind it.
    rcases List.eq_nil_or_concat' after with rfl | ⟨after, last, rfl⟩
    · obtain ⟨rfl, hgf⟩ := List.append_inj' split rfl
      obtain rfl := List.singleton_inj.mp hgf
      exact Or.inl ⟨hf, rfl⟩
    · rw [← List.cons_append, ← List.append_assoc] at split
      obtain ⟨rfl, hglast⟩ := List.append_inj' split rfl
      obtain rfl := List.singleton_inj.mp hglast
      obtain ⟨hafter, hg⟩ := List.forall_mem_append.mp hlater
      exact Or.inr ⟨hg g (List.mem_singleton_self g), before, after, rfl, hf, hafter⟩
  · rintro (⟨hg, rfl⟩ | ⟨hg, before, after, rfl, hf, hafter⟩)
    · exact ⟨fs, [], rfl, hg, List.forall_mem_nil _⟩
    · refine ⟨before, after ++ [g], by simp, hf, List.forall_mem_append.mpr ⟨hafter, ?_⟩⟩
      exact List.forall_mem_singleton.mpr hg

theorem IsLatest.mem (h : IsLatest p fs f) : f ∈ fs ∧ p f := by
  obtain ⟨before, after, rfl, hf, -⟩ := h
  exact ⟨by simp, hf⟩

/-- If some registration has a property, one of them is the latest. -/
theorem exists_isLatest_iff : (∃ f, IsLatest p fs f) ↔ ∃ f ∈ fs, p f := by
  refine ⟨fun ⟨f, h⟩ => ⟨f, h.mem⟩, fun h => ?_⟩
  induction fs using List.reverseRecOn with
  | nil =>
    obtain ⟨f, hf, -⟩ := h
    cases hf
  | append_singleton fs g ih =>
    by_cases hg : p g
    · exact ⟨g, isLatest_concat_iff.mpr (Or.inl ⟨hg, rfl⟩)⟩
    · have hearlier : ∃ f ∈ fs, p f := by
        obtain ⟨f, hmem, hf⟩ := h
        rcases List.mem_append.mp hmem with hmem | hmem
        · exact ⟨f, hmem, hf⟩
        · exact absurd (List.mem_singleton.mp hmem ▸ hf) hg
      obtain ⟨f, hf⟩ := ih hearlier
      exact ⟨f, isLatest_concat_iff.mpr (Or.inr ⟨hg, hf⟩)⟩

namespace Registry

variable {r : Registry}

theorem ofFactories_concat : ofFactories (fs ++ [f]) = (ofFactories fs).register f := by
  rw [ofFactories, List.foldl_append]
  rfl

/-- The built-in registry is one of these. -/
theorem builtin_eq_ofFactories (grammar : String → Parser) :
    builtin grammar
      = ofFactories (builtins.map fun b => ⟨b.name, b.extensions, .ok (grammar b.name)⟩) := by
  rw [builtin, ofFactories, List.foldl_map]

/-! ### One more registration -/

theorem factory?_register :
    (r.register f).factory? l = if f.language = l then some f else r.factory? l :=
  lookUp_put Factory.language l f r.factories

theorem lookUp_addRoutes (routes : List (String × String)) (exts : List String) :
    lookUp Prod.fst ext (addRoutes routes l exts)
      = if ext ∈ exts.map asciiLowercase then some (ext, l) else lookUp Prod.fst ext routes := by
  induction exts generalizing routes with
  | nil => rfl
  | cons e exts ih =>
    rw [addRoutes, List.foldl_cons, ← addRoutes, ih, lookUp_put, List.map_cons]
    by_cases hlater : ext ∈ exts.map asciiLowercase
    · rw [if_pos hlater, if_pos (List.mem_cons_of_mem _ hlater)]
    · by_cases he : asciiLowercase e = ext
      · subst he
        rw [if_neg hlater, if_pos rfl, if_pos List.mem_cons_self]
      · have hnot : ext ∉ asciiLowercase e :: exts.map asciiLowercase := by
          rw [List.mem_cons, not_or]
          exact ⟨Ne.symm he, hlater⟩
        rw [if_neg hlater, if_neg he, if_neg hnot]

theorem languageOf?_register :
    (r.register f).languageOf? ext
      = if ext ∈ f.claims then some f.language else r.languageOf? ext := by
  rw [languageOf?, register, lookUp_addRoutes, ← Factory.claims]
  split <;> rfl

/-- Languages and extensions are listed once, and a language that has an extension has a factory. -/
structure IsOrderly (r : Registry) : Prop where
  languages : (r.factories.map (·.language)).Nodup
  extensions : (r.routes.map (·.1)).Nodup
  served : ∀ ext l, r.languageOf? ext = some l → r.supports l = true

theorem nodup_addRoutes {routes : List (String × String)} (exts : List String)
    (h : (routes.map Prod.fst).Nodup) : ((addRoutes routes l exts).map Prod.fst).Nodup := by
  induction exts generalizing routes with
  | nil => exact h
  | cons e exts ih => exact ih (nodup_put Prod.fst _ h)

theorem IsOrderly.register (h : r.IsOrderly) (f : Factory) : (r.register f).IsOrderly where
  languages := nodup_put Factory.language f h.languages
  extensions := nodup_addRoutes f.extensions h.extensions
  served := by
    intro ext l hl
    rw [supports, factory?_register]
    rw [languageOf?_register] at hl
    by_cases hfl : f.language = l
    · rw [if_pos hfl]
      rfl
    · rw [if_neg hfl]
      split at hl
      · exact absurd (Option.some.inj hl) hfl
      · exact h.served ext l hl

/-! ### All registrations -/

theorem isOrderly_ofFactories (fs : List Factory) : (ofFactories fs).IsOrderly := by
  induction fs using List.reverseRecOn with
  | nil => exact ⟨List.nodup_nil, List.nodup_nil, nofun⟩
  | append_singleton fs f ih =>
    rw [ofFactories_concat]
    exact ih.register f

theorem factory?_ofFactories_iff :
    (ofFactories fs).factory? l = some f ↔ IsLatest (·.language = l) fs f := by
  induction fs using List.reverseRecOn with
  | nil => exact iff_of_false nofun not_isLatest_nil
  | append_singleton fs g ih =>
    rw [ofFactories_concat, factory?_register, isLatest_concat_iff, ← ih]
    by_cases hg : g.language = l <;> simp [hg, eq_comm]

theorem languageOf?_ofFactories_iff :
    (ofFactories fs).languageOf? ext = some l ↔
      ∃ f, IsLatest (ext ∈ ·.claims) fs f ∧ f.language = l := by
  induction fs using List.reverseRecOn with
  | nil => exact iff_of_false nofun fun ⟨_, h, _⟩ => not_isLatest_nil h
  | append_singleton fs g ih =>
    rw [ofFactories_concat, languageOf?_register]
    simp only [isLatest_concat_iff]
    by_cases hg : ext ∈ g.claims <;> simp [hg, ih]

/-! ### Listings -/

theorem mem_sorted {names : List String} {name : String} : name ∈ sorted names ↔ name ∈ names :=
  List.mem_mergeSort

theorem pairwise_sorted {names : List String} (h : names.Nodup) :
    (sorted names).Pairwise fun a b => octets a < octets b :=
  pairwise_octets_mergeSort id (by rwa [List.map_id])

theorem nodup_sorted {names : List String} (h : names.Nodup) : (sorted names).Nodup :=
  (List.mergeSort_perm names _).nodup_iff.mpr h

theorem mem_languages_iff : l ∈ r.languages ↔ r.supports l = true := by
  rw [languages, mem_sorted, supports, factory?, isSome_lookUp_iff]

/-- The extensions of a language are those that lead to it. -/
theorem IsOrderly.mem_extensionsFor_iff (h : r.IsOrderly) :
    ext ∈ r.extensionsFor l ↔ r.languageOf? ext = some l := by
  rw [extensionsFor, mem_sorted, languageOf?, Option.map_eq_some_iff, List.mem_map]
  simp only [lookUp_eq_some_iff Prod.fst h.extensions, List.mem_filter, beq_iff_eq]
  constructor
  · rintro ⟨route, ⟨hmem, hl⟩, hext⟩
    exact ⟨route, ⟨hmem, hext⟩, hl⟩
  · rintro ⟨route, ⟨hmem, hext⟩, hl⟩
    exact ⟨route, ⟨hmem, hl⟩, hext⟩

theorem IsOrderly.nodup_extensions (h : r.IsOrderly) (l : String) :
    ((r.routes.filter fun route => route.2 == l).map (·.1)).Nodup :=
  h.extensions.sublist (List.filter_sublist.map _)

/-- No extension is listed twice, because it leads to one language. -/
theorem IsOrderly.nodup_flatMap (h : r.IsOrderly) :
    (r.languages.flatMap r.extensionsFor).Nodup := by
  rw [List.nodup_flatMap]
  refine ⟨fun l _ => nodup_sorted (h.nodup_extensions l), ?_⟩
  refine (nodup_sorted h.languages).imp fun {l l'} hne ext hl hl' => hne ?_
  rw [h.mem_extensionsFor_iff] at hl hl'
  exact Option.some.inj (hl.symm.trans hl')

/-- The extensions of all languages are the ones that lead somewhere. -/
theorem IsOrderly.mem_flatMap_iff (h : r.IsOrderly) :
    ext ∈ r.languages.flatMap r.extensionsFor ↔ ∃ l, r.languageOf? ext = some l := by
  rw [List.mem_flatMap]
  constructor
  · rintro ⟨l, -, hext⟩
    exact ⟨l, h.mem_extensionsFor_iff.mp hext⟩
  · rintro ⟨l, hl⟩
    exact ⟨l, mem_languages_iff.mpr (h.served ext l hl), h.mem_extensionsFor_iff.mpr hl⟩

/-! ### Paths -/

theorem lists_iff (h : Path.extension? path = some ext) :
    f.Lists path ↔ asciiLowercase ext ∈ f.claims := by
  rw [Factory.Lists, h]
  simp

/-- The language for a path is that of the latest factory that lists its extension. -/
theorem languageForPath?_ofFactories_iff :
    (ofFactories fs).languageForPath? path = some l ↔
      ∃ f, IsLatest (·.Lists path) fs f ∧ f.language = l := by
  rw [languageForPath?]
  cases hext : Path.extension? path with
  | none =>
    refine iff_of_false nofun ?_
    rintro ⟨f, hlatest, -⟩
    obtain ⟨ext, hown, -⟩ := hlatest.mem.2
    rw [hext] at hown
    cases hown
  | some ext =>
    simp only [lists_iff hext]
    exact languageOf?_ofFactories_iff

theorem languageForPath?_ofFactories_eq_none_iff :
    (ofFactories fs).languageForPath? path = none ↔ ∀ f ∈ fs, ¬ f.Lists path := by
  rw [Option.eq_none_iff_forall_ne_some]
  simp only [ne_eq, languageForPath?_ofFactories_iff]
  constructor
  · intro h f hf hlists
    have hlisted : ∃ f ∈ fs, f.Lists path := ⟨f, hf, hlists⟩
    obtain ⟨latest, hlatest⟩ := exists_isLatest_iff.mpr hlisted
    exact h latest.language ⟨latest, hlatest, rfl⟩
  · rintro h l ⟨f, hlatest, -⟩
    exact h f hlatest.mem.1 hlatest.mem.2

theorem supports_ofFactories_iff :
    (ofFactories fs).supports l = true ↔ ∃ f ∈ fs, f.language = l := by
  rw [supports, Option.isSome_iff_exists]
  simp only [factory?_ofFactories_iff]
  exact exists_isLatest_iff

/-- A path leads to a language with a factory. -/
theorem IsOrderly.supports (h : r.IsOrderly) (hl : r.languageForPath? path = some l) :
    r.supports l = true := by
  obtain ⟨ext, -, hl⟩ := Option.bind_eq_some_iff.mp hl
  exact h.served _ l hl

theorem parser?_of_supports (h : (ofFactories fs).supports l = true) :
    ∃ f, IsLatest (·.language = l) fs f ∧ (ofFactories fs).parser? l = f.create.map some := by
  obtain ⟨f, hf⟩ := Option.isSome_iff_exists.mp h
  refine ⟨f, factory?_ofFactories_iff.mp hf, ?_⟩
  rw [parser?, hf]

end Registry

/-! ### The result -/

/-- **Latest registration**: the files with an extension belong to the language that listed it last,
and to none if none did. That language has a factory, and its parsers come from the one registered
for it last. The languages are listed in ascending order; the lists of their extensions ascend too,
have nothing in common, and together are all the extensions that were ever listed. -/
theorem routing_latest (fs : List Factory) :
    let r := Registry.ofFactories fs
    (∀ path,
      (∀ l, r.languageForPath? path = some l ↔
        ∃ f, IsLatest (·.Lists path) fs f ∧ f.language = l) ∧
      (r.languageForPath? path = none ↔ ∀ f ∈ fs, ¬ f.Lists path) ∧
      ∀ l, r.languageForPath? path = some l →
        r.supports l = true ∧ r.parser? l ≠ .ok none ∧
        ∃ f, IsLatest (·.language = l) fs f ∧ r.parser? l = f.create.map some) ∧
    r.languages.Pairwise (fun a b => octets a < octets b) ∧
    (∀ l, l ∈ r.languages ↔ ∃ f ∈ fs, f.language = l) ∧
    (∀ l, (r.extensionsFor l).Pairwise fun a b => octets a < octets b) ∧
    (r.languages.flatMap r.extensionsFor).Nodup ∧
    ∀ ext, ext ∈ r.languages.flatMap r.extensionsFor ↔ ∃ f ∈ fs, ext ∈ f.claims := by
  intro r
  have horderly : r.IsOrderly := Registry.isOrderly_ofFactories fs
  refine ⟨fun path => ⟨?_, ?_, ?_⟩, ?_, ?_, ?_, horderly.nodup_flatMap, ?_⟩
  · exact fun l => Registry.languageForPath?_ofFactories_iff
  · exact Registry.languageForPath?_ofFactories_eq_none_iff
  · intro l hl
    have hsupports : r.supports l = true := horderly.supports hl
    obtain ⟨f, hlatest, hparser⟩ := Registry.parser?_of_supports hsupports
    refine ⟨hsupports, ?_, f, hlatest, hparser⟩
    rw [hparser]
    cases f.create <;> nofun
  · exact Registry.pairwise_sorted horderly.languages
  · exact fun l => Registry.mem_languages_iff.trans Registry.supports_ofFactories_iff
  · exact fun l => Registry.pairwise_sorted (horderly.nodup_extensions l)
  · intro ext
    rw [horderly.mem_flatMap_iff, ← exists_isLatest_iff]
    constructor
    · rintro ⟨l, hl⟩
      obtain ⟨f, hlatest, -⟩ := Registry.languageOf?_ofFactories_iff.mp hl
      exact ⟨f, hlatest⟩
    · rintro ⟨f, hlatest⟩
      exact ⟨f.language, Registry.languageOf?_ofFactories_iff.mpr ⟨f, hlatest, rfl⟩⟩

/-- The second language takes the headers over, and the first is registered again without them: they
stay where they are, and the first language has its later factory. -/
theorem routing_latest_taken_over :
    let fs : List Factory :=
      [⟨"c", ["c", "h"], .error (.parse "earlier")⟩, ⟨"cpp", ["cc", "H"], .error (.parse "other")⟩,
        ⟨"c", ["C"], .error (.parse "later")⟩]
    let r := Registry.ofFactories fs
    r.languageForPath? "src/a.h" = some "cpp" ∧ r.languageForPath? "b.c" = some "c" ∧
      r.supports "c" = true ∧ r.parser? "c" = .error (.parse "later") ∧
      "h" ∈ r.languages.flatMap r.extensionsFor ∧
      (r.languages.flatMap r.extensionsFor).Nodup := by
  intro fs r
  obtain ⟨hpaths, -, -, -, hnodup, hlisted⟩ := routing_latest fs
  have hc : r.languageForPath? "b.c" = some "c" := by decide +kernel
  obtain ⟨hsupports, -, -⟩ := (hpaths "b.c").2.2 "c" hc
  have hheaders : ∃ f ∈ fs, "h" ∈ f.claims := ⟨_, List.mem_cons_self, by decide +kernel⟩
  exact ⟨by decide +kernel, hc, hsupports, rfl, (hlisted "h").mpr hheaders, hnodup⟩

end CodeIndex.Language
