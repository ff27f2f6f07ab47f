/-
The listing of a catalog by name. No name stands twice in a catalog, so the listing ascends strictly,
and there is no other listing of the same parameters that does (`Ascending.eq_of_perm`).

`listing_by_name_is_canonical`: the listing depends on the parameters alone, and not on the order in
which the catalog was given them.
-/
import RdmRegistry.Proofs.FirstRepeat
import RdmRegistry.Proofs.NameOrder

namespace RdmRegistry

variable {φ : Type}

/-- The names ascend, none of them twice. -/
def Ascending (listing : List (Parameter φ)) : Prop :=
  listing.Pairwise fun p q => Parameter.compareNames p.name q.name = .lt

instance (listing : List (Parameter φ)) : Decidable (Ascending listing) :=
  inferInstanceAs (Decidable (listing.Pairwise _))

/-- The same parameters ascend in one way only. -/
theorem Ascending.eq_of_perm {first second : List (Parameter φ)} (h : Ascending first)
    (h' : Ascending second) (hperm : first.Perm second) : first = second :=
  List.Perm.eq_of_pairwise (fun _ _ _ _ hpq hqp => absurd hqp (Parameter.compareNames_asymm hpq))
    h h' hperm

namespace Catalog

variable {parameters : List (Parameter φ)} {catalog first second : Catalog φ}

theorem nodup_names_of_ofList (h : ofList parameters = .ok catalog) :
    (catalog.parameters.map (·.name)).Nodup := by
  rw [parameters_of_ofList h]
  exact (distinct_iff_nodup.mp (exists_ofList_iff.mp ⟨catalog, h⟩)).2

theorem sortedByName_perm (catalog : Catalog φ) :
    catalog.sortedByName.Perm catalog.parameters :=
  List.mergeSort_perm ..

/-- Sorting leaves no name behind a lower one; that none stands behind itself is due to the catalog. -/
theorem ascending_sortedByName (h : (catalog.parameters.map (·.name)).Nodup) :
    Ascending catalog.sortedByName := by
  have hsorted : catalog.sortedByName.Pairwise
      fun p q => (Parameter.compareNames p.name q.name).isLE = true :=
    List.pairwise_mergeSort (fun p q r => Parameter.compareNames_trans p.name q.name r.name)
      (fun p q => Parameter.compareNames_total p.name q.name) _
  have hnames : catalog.sortedByName.Pairwise fun p q => p.name ≠ q.name :=
    List.pairwise_map.mp ((catalog.sortedByName_perm.map _).nodup_iff.mpr h)
  exact (hsorted.and hnames).imp fun hgiven => Parameter.compareNames_eq_lt hgiven.1 hgiven.2

/-- Names are unique in a catalog, so there is one way to sort by them. -/
theorem sortedByName_eq_of_perm (hc : ofList parameters = .ok first)
    (h : first.parameters.Perm second.parameters) : first.sortedByName = second.sortedByName := by
  have hfirst := nodup_names_of_ofList hc
  have hsecond := (h.map (·.name)).nodup_iff.mp hfirst
  exact (ascending_sortedByName hfirst).eq_of_perm (ascending_sortedByName hsecond)
    (first.sortedByName_perm.trans (h.trans second.sortedByName_perm.symm))

/-- The catalog can be listed by name in one way, and is listed so. -/
structure ListsByName (catalog : Catalog φ) : Prop where
  perm : catalog.sortedByName.Perm catalog.parameters
  ascending : Ascending catalog.sortedByName
  unique : ∀ listing, listing.Perm catalog.parameters → Ascending listing →
    listing = catalog.sortedByName

theorem listsByName_of_ofList (h : ofList parameters = .ok catalog) : catalog.ListsByName where
  perm := catalog.sortedByName_perm
  ascending := ascending_sortedByName (nodup_names_of_ofList h)
  unique _ hperm hascending :=
    hascending.eq_of_perm (ascending_sortedByName (nodup_names_of_ofList h))
      (hperm.trans catalog.sortedByName_perm.symm)

end Catalog

/-- **The listing by name is canonical.** Every catalog is listed in strictly ascending order of
names, names are in a total order by their bytes, and catalogs of the same parameters are listed alike. -/
theorem listing_by_name_is_canonical :
    (∀ (parameters : List (Parameter φ)) (catalog : Catalog φ),
      Catalog.ofList parameters = .ok catalog → catalog.ListsByName) ∧
    Parameter.NameOrderLaws ∧
    ∀ (first second : List (Parameter φ)) (c d : Catalog φ), first.Perm second →
      Catalog.ofList first = .ok c → Catalog.ofList second = .ok d →
      c.sortedByName = d.sortedByName := by
  refine ⟨fun _ _ h => Catalog.listsByName_of_ofList h, Parameter.nameOrderLaws, ?_⟩
  intro first second c d hperm hc hd
  refine Catalog.sortedByName_eq_of_perm hc ?_
  rwa [Catalog.parameters_of_ofList hc, Catalog.parameters_of_ofList hd]

/-- Names of which one is the beginning of another, and one begins with a letter outside of ASCII. -/
def accentedParameters : List (Parameter Unit) :=
  [{ name := "éa", value := 1 }, { name := "ab", value := 2 }, { name := "z", value := 3 },
    { name := "a", value := 4 }]

theorem listing_by_name_is_canonical_accented :
    ∃ c d, Catalog.ofList accentedParameters = .ok c ∧
      Catalog.ofList accentedParameters.reverse = .ok d ∧
      c.parameters ≠ d.parameters ∧ c.ListsByName ∧ c.sortedByName = d.sortedByName ∧
      c.sortedByName.map (·.name) = ["a", "ab", "z", "éa"] := by
  have hperm : accentedParameters.Perm accentedParameters.reverse := (List.reverse_perm _).symm
  have hlists := listing_by_name_is_canonical.1 accentedParameters _ rfl
  have hlisting := hlists.unique
    [{ name := "a", value := 4 }, { name := "ab", value := 2 }, { name := "z", value := 3 },
      { name := "éa", value := 1 }] (by decide +kernel) (by decide +kernel)
  refine ⟨_, _, rfl, rfl, by decide, hlists, ?_, ?_⟩
  · exact listing_by_name_is_canonical.2.2 _ _ _ _ hperm rfl rfl
  · rw [← hlisting]
    rfl

end RdmRegistry
