import TypeCatalog.Program.Bases
import TypeCatalog.Proofs.Chains

/-! # Cutting cycles of bases

Bases that classes write may run in cycles. `TypeCatalog.BaseLinks.cutAll` walks up the chain of
each class in turn and drops the base at which the walk closes. After any number of classes every
cycle of written bases is either whole and unseen (`TypeCatalog.Untouched`) or cut in one place
(`TypeCatalog.CutOnce`), and no base off the cycles is touched (`TypeCatalog.CutSoFar`). After all
classes every cycle is cut (`TypeCatalog.cutAll_cutOnce`) and the bases that are left have no cycle
(`TypeCatalog.cutAll_acyclic`).
-/

namespace TypeCatalog

/-- The key of the base that a table of bases gives to a key. -/
def baseKey? (bases : Table TypeSymbol) (key : String) : Option String :=
  (bases.find? key).bind TypeSymbol.key?

theorem mem_keys_of_baseKey? {bases : Table TypeSymbol} {key base : String}
    (link : baseKey? bases key = some base) : key ∈ bases.keys := by
  obtain ⟨symbol, found, _⟩ := Option.bind_eq_some_iff.mp link
  exact Table.isSome_find?_iff.mp (by simp [found])

theorem baseKey?_congr {left right : Table TypeSymbol} {key : String}
    (same : left.find? key = right.find? key) : baseKey? left key = baseKey? right key := by
  rw [baseKey?, baseKey?, same]

/-! ## Looking for the closing link -/

namespace BaseLinks

/-- The search for a closing link finds the link that enters a cycle, or the chain ends. The number
of steps suffices because every type passed has a base of its own. -/
theorem closingLink?_cases {bases : Table TypeSymbol} {start current : String}
    {passed : List String} (trail : Trail (baseKey? bases) start current passed) {steps : Nat}
    (enough : bases.size ≤ steps + passed.length) :
    (∃ entry last, closingLink? bases steps (current :: passed) current = some (entry, last) ∧
      Enters (baseKey? bases) start entry ∧ baseKey? bases last = some entry ∧
      Reaches (baseKey? bases) entry last) ∨
    (closingLink? bases steps (current :: passed) current = none ∧
      ∃ last, Reaches (baseKey? bases) start last ∧ baseKey? bases last = none) := by
  induction steps generalizing current passed with
  | zero =>
      refine Or.inr ⟨rfl, current, trail.reaches, ?_⟩
      cases link : baseKey? bases current with
      | none => rfl
      | some base =>
          have inside : current :: passed ⊆ bases.keys := by
            intro key member
            rcases List.mem_cons.mp member with rfl | earlier
            · exact mem_keys_of_baseKey? link
            · obtain ⟨above, step⟩ := Option.ne_none_iff_exists'.mp (trail.next_ne_none key earlier)
              exact mem_keys_of_baseKey? step
          have bound := trail.nodup.length_le_of_subset inside
          simp only [List.length_cons, Table.keys, List.length_map, Table.size] at bound enough
          omega
  | succ steps ih =>
      cases link : baseKey? bases current with
      | none =>
          refine Or.inr ⟨?_, current, trail.reaches, link⟩
          rw [baseKey?] at link
          rw [closingLink?, link]
      | some key =>
          have unfolded : closingLink? bases (steps + 1) (current :: passed) current =
              if (current :: passed).contains key then some (key, current)
              else closingLink? bases steps (key :: current :: passed) key := by
            rw [baseKey?] at link
            rw [closingLink?, link]
          rw [unfolded]
          by_cases met : key ∈ current :: passed
          · obtain ⟨enters, onward⟩ := trail.enters link met
            refine Or.inl ⟨key, current, ?_, enters, link, onward⟩
            rw [if_pos (List.contains_iff_mem.mpr met)]
          · rw [if_neg fun listed => met (List.contains_iff_mem.mp listed)]
            refine ih (trail.snoc link met) ?_
            simp only [List.length_cons]
            omega

end BaseLinks

/-! ## What is cut -/

/-- A cycle of written bases that no class processed so far reaches: all its bases are there. -/
structure Untouched (written : Table TypeSymbol) (done : List String) (links : BaseLinks)
    (key : String) : Prop where
  unseen : ∀ fqn ∈ done, ¬ Reaches (baseKey? written) fqn key
  kept : ∀ other, Reaches (baseKey? written) key other →
    links.bases.find? other = written.find? other
  unwarned : ∀ through dropped, .cycleCut through dropped ∈ links.notices →
    ¬ Reaches (baseKey? written) key through

/-- **The cut of a cycle.** Of the types on a cycle of written bases exactly one has lost its base:
the one before the type through which the first class whose chain reaches the cycle enters it. One
warning tells of it. -/
structure CutOnce (written : Table TypeSymbol) (classes : List String)
    (bases : Table TypeSymbol) (warnings : List Notice) (key entry dropped : String) : Prop where
  first : ∃ earlier fqn later, classes = earlier ++ fqn :: later ∧
    Enters (baseKey? written) fqn entry ∧
    ∀ other ∈ earlier, ¬ Reaches (baseKey? written) other key
  onCycle : Reaches (baseKey? written) key dropped
  link : baseKey? written dropped = some entry
  lost : bases.find? dropped = none
  kept : ∀ other, Reaches (baseKey? written) key other → other ≠ dropped →
    bases.find? other = written.find? other
  warned : warnings.count (.cycleCut entry dropped) = 1
  only : ∀ through other, .cycleCut through other ∈ warnings →
    Reaches (baseKey? written) key through → through = entry ∧ other = dropped

/-- What is known of the links after some classes were processed. -/
structure CutSoFar (written : Table TypeSymbol) (done : List String) (links : BaseLinks) :
    Prop where
  kept : ∀ key, ¬ OnCycle (baseKey? written) key → links.bases.find? key = written.find? key
  cycles : ∀ key, OnCycle (baseKey? written) key → Untouched written done links key ∨
    ∃ entry dropped, CutOnce written done links.bases links.notices key entry dropped
  warnings : ∀ notice ∈ links.notices, ∃ through dropped, notice = .cycleCut through dropped ∧
    OnCycle (baseKey? written) through

namespace CutOnce

variable {written bases : Table TypeSymbol} {classes : List String} {warnings : List Notice}
  {key entry dropped : String}

theorem not_onCycle (cut : CutOnce written classes bases warnings key entry dropped)
    (sub : ∀ current base, baseKey? bases current = some base →
      baseKey? written current = some base) : ¬ OnCycle (baseKey? bases) key := by
  intro on
  obtain ⟨base, link, _⟩ := on.of_reaches (on.reaches_of_more sub cut.onCycle)
  simp [baseKey?, cut.lost] at link

/-- Bases that are equal under every key are cut in the same places. -/
theorem congr (cut : CutOnce written classes bases warnings key entry dropped)
    {other : Table TypeSymbol} (same : ∀ name, other.find? name = bases.find? name) :
    CutOnce written classes other warnings key entry dropped where
  first := cut.first
  onCycle := cut.onCycle
  link := cut.link
  lost := (same dropped).trans cut.lost
  kept := fun name reached different => (same name).trans (cut.kept name reached different)
  warned := cut.warned
  only := cut.only

end CutOnce

/-! ## One more cut -/

/-- A cycle on which neither the entry of a cut nor the type before it stands. -/
structure Apart (written : Table TypeSymbol) (key entry last : String) : Prop where
  entry : ¬ Reaches (baseKey? written) key entry
  last : ¬ Reaches (baseKey? written) key last

theorem Apart.find?_erase {written bases : Table TypeSymbol} {key entry last other : String}
    (apart : Apart written key entry last) (reached : Reaches (baseKey? written) key other) :
    (bases.erase last).find? other = bases.find? other := by
  rw [Table.find?_erase, if_neg fun same : other = last => apart.last (same ▸ reached)]

namespace Untouched

variable {written : Table TypeSymbol} {done : List String} {links : BaseLinks}
  {key entry last fqn : String}

/-- What is known of one type of an untouched cycle is known of all. -/
theorem of_reaches (untouched : Untouched written done links key)
    (on : OnCycle (baseKey? written) key) {other : String}
    (reached : Reaches (baseKey? written) key other) : Untouched written done links other where
  unseen name member toOther :=
    untouched.unseen name member (toOther.trans (on.reaches_back reached))
  kept next toNext := untouched.kept next (reached.trans toNext)
  unwarned through dropped member toThrough :=
    untouched.unwarned through dropped member (reached.trans toThrough)

/-- The first class whose chain enters an untouched cycle cuts it. -/
theorem cutOnce (untouched : Untouched written done links key)
    (entered : Enters (baseKey? written) fqn entry) (link : baseKey? written last = some entry)
    (toEntry : Reaches (baseKey? written) key entry)
    (toLast : Reaches (baseKey? written) key last) :
    CutOnce written (done ++ [fqn]) (links.bases.erase last)
      (links.notices ++ [.cycleCut entry last]) key entry last where
  first := ⟨done, fqn, [], by simp, entered, untouched.unseen⟩
  onCycle := toLast
  link := link
  lost := by rw [Table.find?_erase, if_pos rfl]
  kept := by
    intro other reached different
    rw [Table.find?_erase, if_neg different]
    exact untouched.kept other reached
  warned := by
    rw [List.count_append, List.count_singleton_self, List.count_eq_zero.mpr]
    exact fun member => untouched.unwarned _ _ member toEntry
  only := by
    intro through other member reached
    rcases List.mem_append.mp member with earlier | single
    · exact absurd reached (untouched.unwarned through other earlier)
    · injection List.mem_singleton.mp single with first second
      exact ⟨first, second⟩

theorem of_apart (untouched : Untouched written done links key)
    (apart : Apart written key entry last) (unseen : ¬ Reaches (baseKey? written) fqn key) :
    Untouched written (done ++ [fqn])
      ⟨links.bases.erase last, links.notices ++ [.cycleCut entry last]⟩ key where
  unseen := by
    intro name member reached
    rcases List.mem_append.mp member with earlier | single
    · exact untouched.unseen name earlier reached
    · exact unseen (List.mem_singleton.mp single ▸ reached)
  kept other reached := (apart.find?_erase reached).trans (untouched.kept other reached)
  unwarned := by
    intro through other member reached
    rcases List.mem_append.mp member with earlier | single
    · exact untouched.unwarned through other earlier reached
    · injection List.mem_singleton.mp single with first
      exact apart.entry (first ▸ reached)

end Untouched

theorem CutOnce.of_apart {written bases : Table TypeSymbol} {done : List String}
    {warnings : List Notice} {key entry last through dropped : String}
    (cut : CutOnce written done bases warnings key through dropped)
    (apart : Apart written key entry last) (fqn : String) :
    CutOnce written (done ++ [fqn]) (bases.erase last) (warnings ++ [.cycleCut entry last]) key
      through dropped where
  first := by
    obtain ⟨earlier, first, later, split, enters, unseen⟩ := cut.first
    exact ⟨earlier, first, later ++ [fqn], by simp [split], enters, unseen⟩
  onCycle := cut.onCycle
  link := cut.link
  lost := (apart.find?_erase cut.onCycle).trans cut.lost
  kept other reached different :=
    (apart.find?_erase reached).trans (cut.kept other reached different)
  warned := by
    rw [List.count_append, cut.warned, List.count_eq_zero.mpr]
    intro single
    injection List.mem_singleton.mp single with first
    exact apart.entry (first ▸ cut.onCycle.trans (Reaches.step cut.link))
  only := by
    intro found other member reached
    rcases List.mem_append.mp member with earlier | single
    · exact cut.only found other earlier reached
    · injection List.mem_singleton.mp single with first
      exact absurd (first ▸ reached) apart.entry

namespace CutSoFar

variable {written : Table TypeSymbol} {done : List String} {links : BaseLinks}

theorem find?_of_find? (sofar : CutSoFar written done links) {key : String} {base : TypeSymbol}
    (found : links.bases.find? key = some base) : written.find? key = some base := by
  by_cases on : OnCycle (baseKey? written) key
  · rcases sofar.cycles key on with untouched | ⟨entry, dropped, cut⟩
    · exact (untouched.kept key (Reaches.refl key)).symm.trans found
    · by_cases same : key = dropped
      · exact absurd (found.symm.trans (same ▸ cut.lost)) (by simp)
      · exact (cut.kept key (Reaches.refl key) same).symm.trans found
  · exact (sofar.kept key on).symm.trans found

theorem baseKey?_of_baseKey? (sofar : CutSoFar written done links) (key base : String)
    (link : baseKey? links.bases key = some base) : baseKey? written key = some base := by
  obtain ⟨symbol, found, keyed⟩ := Option.bind_eq_some_iff.mp link
  rw [baseKey?, sofar.find?_of_find? found, Option.bind_some, keyed]

/-- The chain of a type that runs into an untouched cycle has all its bases. -/
theorem baseKey?_eq_of_reaches (sofar : CutSoFar written done links) {start key : String}
    (untouched : Untouched written done links key)
    (reached : Reaches (baseKey? written) start key) :
    ∀ other, Reaches (baseKey? written) start other →
      baseKey? links.bases other = baseKey? written other := by
  intro other otherReached
  apply baseKey?_congr
  by_cases onOther : OnCycle (baseKey? written) other
  · exact untouched.kept other (onOther.reaches_of_common reached otherReached)
  · exact sofar.kept other onOther

/-- A class whose chain ends leaves the links as they are. -/
theorem of_end (sofar : CutSoFar written done links) {fqn last : String}
    (ends : Reaches (baseKey? links.bases) fqn last) (ended : baseKey? links.bases last = none) :
    CutSoFar written (done ++ [fqn]) links where
  kept := sofar.kept
  warnings := sofar.warnings
  cycles := by
    intro key on
    rcases sofar.cycles key on with untouched | ⟨entry, dropped, cut⟩
    · refine Or.inl ⟨?_, untouched.kept, untouched.unwarned⟩
      intro name member reached
      rcases List.mem_append.mp member with earlier | single
      · exact untouched.unseen name earlier reached
      · rw [List.mem_singleton.mp single] at reached
        -- an untouched cycle would still be there for the chain to run into
        have same := sofar.baseKey?_eq_of_reaches untouched reached
        refine OnCycle.not_of_end ends ended (reached.of_agree same) (on.of_agree ?_)
        exact fun other onward => same other (reached.trans onward)
    · obtain ⟨earlier, first, later, split, enters, unseen⟩ := cut.first
      refine Or.inr ⟨entry, dropped, { cut with first := ?_ }⟩
      exact ⟨earlier, first, later ++ [fqn], by simp [split], enters, unseen⟩

/-- A class whose chain closes cuts the cycle that the chain enters. -/
theorem of_close (sofar : CutSoFar written done links) {fqn entry last : String}
    (enters : Enters (baseKey? links.bases) fqn entry)
    (link : baseKey? links.bases last = some entry)
    (onward : Reaches (baseKey? links.bases) entry last) :
    CutSoFar written (done ++ [fqn])
      ⟨links.bases.erase last, links.notices ++ [.cycleCut entry last]⟩ := by
  have sub := sofar.baseKey?_of_baseKey?
  have on : OnCycle (baseKey? written) entry := enters.onCycle.mono sub
  have toLast : Reaches (baseKey? written) entry last := onward.mono sub
  have untouched : Untouched written done links entry := by
    rcases sofar.cycles entry on with untouched | ⟨_, _, cut⟩
    · exact untouched
    · exact absurd enters.onCycle (cut.not_onCycle sub)
  have entered : Enters (baseKey? written) fqn entry :=
    enters.mono sub fun other reached => baseKey?_congr (untouched.kept other reached)
  refine ⟨?_, ?_, ?_⟩
  · intro key off
    rw [Table.find?_erase, if_neg fun same : key = last => off (same ▸ on.of_reaches toLast)]
    exact sofar.kept key off
  · intro key onKey
    by_cases same : Reaches (baseKey? written) entry key
    · have back : Reaches (baseKey? written) key entry := on.reaches_back same
      have whole := untouched.of_reaches on same
      exact Or.inr ⟨entry, last, whole.cutOnce entered (sub _ _ link) back (back.trans toLast)⟩
    · -- a cycle that does not hold the entry is not concerned by the cut
      have apart : Apart written key entry last := by
        refine ⟨fun reached => same (onKey.reaches_back reached), fun reached => ?_⟩
        exact same (onKey.reaches_back (reached.trans (on.reaches_back toLast)))
      have unseen : ¬ Reaches (baseKey? written) fqn key := fun reached =>
        same (onKey.reaches_of_common entered.reaches reached)
      rcases sofar.cycles key onKey with still | ⟨through, dropped, cut⟩
      · exact Or.inl (still.of_apart apart unseen)
      · exact Or.inr ⟨through, dropped, cut.of_apart apart fqn⟩
  · intro notice member
    rcases List.mem_append.mp member with earlier | single
    · exact sofar.warnings notice earlier
    · exact ⟨entry, last, List.mem_singleton.mp single, on⟩

/-- **One class.** Walking up the chain of a class keeps what is known, for one class more. -/
theorem cutFrom (sofar : CutSoFar written done links) (fqn : String) :
    CutSoFar written (done ++ [fqn]) (links.cutFrom fqn) := by
  rcases BaseLinks.closingLink?_cases (.start : Trail (baseKey? links.bases) fqn fqn [])
      (Nat.le_add_right links.bases.size 0) with
    ⟨entry, last, found, enters, link, onward⟩ | ⟨missing, last, ends, ended⟩
  · rw [BaseLinks.cutFrom, found]
    exact sofar.of_close enters link onward
  · rw [BaseLinks.cutFrom, missing]
    exact sofar.of_end ends ended

end CutSoFar

/-! ## All classes -/

theorem CutSoFar.initial (written : Table TypeSymbol) : CutSoFar written [] ⟨written, []⟩ where
  kept := fun _ _ => rfl
  cycles := fun _ _ => Or.inl ⟨by simp, fun _ _ => rfl, by simp⟩
  warnings := by simp

/-- What is known holds after all classes. -/
theorem cutAll_cutSoFar (written : Table TypeSymbol) (classes : List String) :
    CutSoFar written classes (BaseLinks.cutAll written classes) := by
  suffices folded : ∀ done links, CutSoFar written done links →
      CutSoFar written (done ++ classes) (classes.foldl BaseLinks.cutFrom links) by
    exact folded [] ⟨written, []⟩ (CutSoFar.initial written)
  induction classes with
  | nil =>
      intro done links sofar
      rw [List.append_nil]
      exact sofar
  | cons fqn rest ih =>
      intro done links sofar
      rw [List.append_cons, List.foldl_cons]
      exact ih _ _ (sofar.cutFrom fqn)

section

variable {written : Table TypeSymbol} {classes : List String}
  (known : ∀ key ∈ written.keys, key ∈ classes)

include known

/-- Every cycle of written bases is cut once, when only classes write bases. -/
theorem cutAll_cutOnce {key : String} (on : OnCycle (baseKey? written) key) :
    ∃ entry dropped, CutOnce written classes (BaseLinks.cutAll written classes).bases
      (BaseLinks.cutAll written classes).notices key entry dropped := by
  rcases (cutAll_cutSoFar written classes).cycles key on with untouched | cut
  · obtain ⟨base, link, _⟩ := on
    have member := known key (mem_keys_of_baseKey? link)
    exact absurd (Reaches.refl key) (untouched.unseen key member)
  · exact cut

theorem cutAll_acyclic (key : String) :
    ¬ OnCycle (baseKey? (BaseLinks.cutAll written classes).bases) key := by
  intro on
  have sub := (cutAll_cutSoFar written classes).baseKey?_of_baseKey?
  obtain ⟨_, _, cut⟩ := cutAll_cutOnce known (on.mono sub)
  exact cut.not_onCycle sub on

end

end TypeCatalog
