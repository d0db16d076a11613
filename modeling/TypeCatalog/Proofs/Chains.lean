import Mathlib.Combinatorics.Pigeonhole
import Mathlib.Logic.Relation

/-! # Chains of a partial function

A partial function that gives values a next value strings them into chains. A chain comes to an end
(`TypeCatalog.Run` lists what it passes through), or it enters a cycle (`TypeCatalog.Enters` names
the value through which it does). A chain can be walked with a list of what was passed: the walk
(`TypeCatalog.Trail`) closes at a value passed before exactly where the chain enters its cycle
(`TypeCatalog.Trail.enters`).
-/

namespace TypeCatalog

variable {α : Type}

/-! ## Reaching values -/

/-- A value is reached from another in some number of steps, none included. -/
def Reaches (next : α → Option α) : α → α → Prop :=
  Relation.ReflTransGen fun current following => next current = some following

/-- A value is on a cycle when a first step from it leads back to it. -/
def OnCycle (next : α → Option α) (value : α) : Prop :=
  ∃ following, next value = some following ∧ Reaches next following value

/-- The value through which a chain enters the cycle that it runs into. -/
inductive Enters (next : α → Option α) : α → α → Prop
  | here {value : α} (on : OnCycle next value) : Enters next value value
  | later {value following entry : α} (off : ¬ OnCycle next value)
      (link : next value = some following) (rest : Enters next following entry) :
      Enters next value entry

namespace Reaches

variable {next : α → Option α}

theorem refl (value : α) : Reaches next value value := Relation.ReflTransGen.refl

theorem step {first second : α} (link : next first = some second) : Reaches next first second :=
  Relation.ReflTransGen.single link

theorem trans {first second third : α} (left : Reaches next first second)
    (right : Reaches next second third) : Reaches next first third :=
  Relation.ReflTransGen.trans left right

theorem head {first second third : α} (link : next first = some second)
    (rest : Reaches next second third) : Reaches next first third :=
  (step link).trans rest

/-- A value reaches itself and what its next value reaches. -/
theorem eq_or_next {first last : α} (reached : Reaches next first last) :
    first = last ∨ ∃ second, next first = some second ∧ Reaches next second last :=
  Relation.ReflTransGen.cases_head reached

/-- Of two values on one chain one reaches the other. -/
theorem total {first left right : α} (toLeft : Reaches next first left)
    (toRight : Reaches next first right) : Reaches next left right ∨ Reaches next right left :=
  Relation.ReflTransGen.total_of_right_unique
    (fun _ _ _ one other => Option.some.inj (one.symm.trans other)) toLeft toRight

theorem mono {more : α → Option α}
    (kept : ∀ current following, next current = some following → more current = some following)
    {first last : α} (reached : Reaches next first last) : Reaches more first last :=
  Relation.ReflTransGen.mono kept _ _ reached

/-- What is reached from a value depends only on the links of values reached from it. -/
theorem of_agree {other : α → Option α} {first last : α}
    (agree : ∀ value, Reaches next first value → other value = next value)
    (reached : Reaches next first last) : Reaches other first last := by
  induction reached with
  | refl => exact refl _
  | tail before link ih => exact ih.trans (step ((agree _ before).trans link))

end Reaches

namespace OnCycle

variable {next : α → Option α}

/-- Every value reached from a cycle leads back to where it was reached from. -/
theorem reaches_back {value other : α} (on : OnCycle next value)
    (reached : Reaches next value other) : Reaches next other value := by
  obtain ⟨following, link, back⟩ := on
  induction reached with
  | refl => exact Reaches.refl _
  | @tail before after _ step ih =>
      rcases ih.eq_or_next with same | ⟨second, stepSecond, rest⟩
      · subst same
        rw [Option.some.inj (step.symm.trans link)]
        exact back
      · rw [Option.some.inj (step.symm.trans stepSecond)]
        exact rest

/-- What is reached from a cycle is on it. -/
theorem of_reaches {value other : α} (on : OnCycle next value)
    (reached : Reaches next value other) : OnCycle next other := by
  have back := on.reaches_back reached
  obtain ⟨following, link, rest⟩ := on
  rcases back.eq_or_next with same | ⟨second, step, toValue⟩
  · subst same
    exact ⟨following, link, rest⟩
  · exact ⟨second, step, toValue.trans reached⟩

theorem mono {more : α → Option α}
    (kept : ∀ current following, next current = some following → more current = some following)
    {value : α} (on : OnCycle next value) : OnCycle more value := by
  obtain ⟨following, link, back⟩ := on
  exact ⟨following, kept _ _ link, back.mono kept⟩

/-- A cycle depends only on the links of its values. -/
theorem of_agree {other : α → Option α} {value : α}
    (agree : ∀ reached, Reaches next value reached → other reached = next reached)
    (on : OnCycle next value) : OnCycle other value := by
  obtain ⟨following, link, back⟩ := on
  refine ⟨following, (agree _ (Reaches.refl _)).trans link, ?_⟩
  exact back.of_agree fun reached fromFollowing => agree _ (Reaches.head link fromFollowing)

/-- A cycle reaches nothing more after links are added. -/
theorem reaches_of_more {more : α → Option α}
    (kept : ∀ current following, next current = some following → more current = some following)
    {value other : α} (on : OnCycle next value) (reached : Reaches more value other) :
    Reaches next value other := by
  induction reached with
  | refl => exact Reaches.refl _
  | tail _ link ih =>
      obtain ⟨following, step, _⟩ := on.of_reaches ih
      rw [Option.some.inj (link.symm.trans (kept _ _ step))]
      exact ih.trans (Reaches.step step)

/-- Two values of cycles that one value reaches are on the same cycle. -/
theorem reaches_of_common {start value other : α} (otherOn : OnCycle next other)
    (reached : Reaches next start value) (otherReached : Reaches next start other) :
    Reaches next value other := by
  rcases reached.total otherReached with forth | back
  · exact forth
  · exact otherOn.reaches_back back

/-- Where a rank falls with every step to a value that has a next value, there is no cycle. -/
theorem not_of_falling (rank : α → Nat)
    (falls : ∀ value following, next value = some following → next following ≠ none →
      rank following < rank value) (value : α) : ¬ OnCycle next value := by
  induction ranked : rank value using Nat.strongRecOn generalizing value with
  | ind bound ih =>
      rintro ⟨following, link, back⟩
      obtain ⟨beyond, onward, further⟩ : OnCycle next following :=
        OnCycle.of_reaches ⟨following, link, back⟩ (Reaches.step link)
      have lower := falls value following link (by simp [onward])
      exact ih (rank following) (ranked ▸ lower) following rfl ⟨beyond, onward, further⟩

/-- A chain that comes to an end passes no cycle. -/
theorem not_of_end {start last value : α} (ends : Reaches next start last)
    (ended : next last = none) (reached : Reaches next start value) : ¬ OnCycle next value := by
  intro on
  have onLast : OnCycle next last := by
    rcases reached.total ends with forth | back
    · exact on.of_reaches forth
    · rcases back.eq_or_next with same | ⟨following, link, _⟩
      · exact same ▸ on
      · exact absurd (link.symm.trans ended) (by simp)
  obtain ⟨following, link, _⟩ := onLast
  exact absurd (link.symm.trans ended) (by simp)

end OnCycle

namespace Enters

variable {next : α → Option α}

theorem reaches {value entry : α} (enters : Enters next value entry) :
    Reaches next value entry := by
  induction enters with
  | here => exact Reaches.refl _
  | later _ link _ ih => exact Reaches.head link ih

theorem onCycle {value entry : α} (enters : Enters next value entry) : OnCycle next entry := by
  induction enters with
  | here on => exact on
  | later _ _ _ ih => exact ih

theorem mono {more : α → Option α}
    (kept : ∀ current following, next current = some following → more current = some following)
    {value entry : α} (enters : Enters next value entry)
    (agree : ∀ reached, Reaches more entry reached → next reached = more reached) :
    Enters more value entry := by
  induction enters with
  | here on => exact .here (on.mono kept)
  | later off link rest ih =>
      refine .later ?_ (kept _ _ link) (ih agree)
      intro on
      have reached := (Reaches.head link rest.reaches).mono kept
      refine off (on.of_agree fun other toOther => agree other ?_)
      exact (on.reaches_back reached).trans toOther

end Enters

/-! ## Walks that remember -/

/-- A walk from a start to a current value that met no value twice. It remembers the values it
passed before the current one, the last of them first. -/
inductive Trail (next : α → Option α) (start : α) : α → List α → Prop
  | start : Trail next start start []
  | snoc {current following : α} {passed : List α} (before : Trail next start current passed)
      (link : next current = some following) (fresh : following ∉ current :: passed) :
      Trail next start following (current :: passed)

namespace Trail

variable {next : α → Option α} {start current : α} {passed : List α}

theorem nodup (trail : Trail next start current passed) : (current :: passed).Nodup := by
  induction trail with
  | start => simp
  | snoc _ _ fresh ih => exact List.nodup_cons.mpr ⟨fresh, ih⟩

theorem next_ne_none (trail : Trail next start current passed) :
    ∀ value ∈ passed, next value ≠ none := by
  induction trail with
  | start => simp
  | snoc _ link _ ih =>
      intro value member
      rcases List.mem_cons.mp member with rfl | earlier
      · simp [link]
      · exact ih value earlier

theorem reaches (trail : Trail next start current passed) : Reaches next start current := by
  induction trail with
  | start => exact Reaches.refl _
  | snoc _ link _ ih => exact ih.trans (Reaches.step link)

/-- The values on a trail lead to where it stands. -/
theorem reaches_current (trail : Trail next start current passed) :
    ∀ value ∈ current :: passed, Reaches next value current := by
  induction trail with
  | start =>
      intro value member
      rw [List.mem_singleton.mp member]
      exact Reaches.refl _
  | snoc _ link _ ih =>
      intro value member
      rcases List.mem_cons.mp member with rfl | earlier
      · exact Reaches.refl _
      · exact (ih value earlier).trans (Reaches.step link)

theorem upTo (trail : Trail next start current passed) {value : α}
    (member : value ∈ current :: passed) :
    ∃ later earlier, current :: passed = later ++ value :: earlier ∧
      Trail next start value earlier := by
  induction trail with
  | start =>
      rw [List.mem_singleton.mp member]
      exact ⟨[], [], rfl, .start⟩
  | @snoc current following passed before link fresh ih =>
      rcases List.mem_cons.mp member with rfl | earlier
      · exact ⟨[], _, rfl, .snoc before link fresh⟩
      · obtain ⟨later, earlier, split, sub⟩ := ih earlier
        exact ⟨following :: later, earlier, by rw [split, List.cons_append], sub⟩

/-- From one of its values on, a trail leads to later values of its own until it stands. -/
theorem next_mem (trail : Trail next start current passed) {value : α} {later earlier : List α}
    (split : current :: passed = later ++ value :: earlier) :
    ∀ other ∈ later ++ [value], other = current ∨ ∃ after ∈ later, next other = some after := by
  induction trail generalizing later with
  | start =>
      intro other member
      cases later with
      | nil =>
          rw [List.nil_append, List.cons.injEq] at split
          rw [List.nil_append, List.mem_singleton] at member
          exact Or.inl (member.trans split.1.symm)
      | cons => simp at split
  | @snoc current following passed before link fresh ih =>
      intro other member
      cases later with
      | nil =>
          rw [List.nil_append, List.cons.injEq] at split
          rw [List.nil_append, List.mem_singleton] at member
          exact Or.inl (member.trans split.1.symm)
      | cons head later =>
          rw [List.cons_append, List.cons.injEq] at split
          obtain ⟨rfl, split⟩ := split
          rcases List.mem_cons.mp member with rfl | member
          · exact Or.inl rfl
          · rcases ih split other member with rfl | ⟨after, inside, step⟩
            · exact Or.inr ⟨following, List.mem_cons_self, link⟩
            · exact Or.inr ⟨after, List.mem_cons_of_mem _ inside, step⟩

/-- A trail whose values passed are on no cycle enters the cycle that it stands at. -/
theorem enters_of_off (trail : Trail next start current passed) {entry : α}
    (enters : Enters next current entry) (off : ∀ value ∈ passed, ¬ OnCycle next value) :
    Enters next start entry := by
  induction trail with
  | start => exact enters
  | snoc _ link _ ih =>
      refine ih (.later (off _ List.mem_cons_self) link enters) ?_
      exact fun value member => off value (List.mem_cons_of_mem _ member)

/-- **Where a trail closes.** When the next value was met before, the chain enters its cycle there,
and the trail stands at the last value of the cycle. -/
theorem enters (trail : Trail next start current passed) {entry : α}
    (link : next current = some entry) (met : entry ∈ current :: passed) :
    Enters next start entry ∧ Reaches next entry current := by
  have onward : Reaches next entry current := trail.reaches_current entry met
  obtain ⟨later, earlier, split, sub⟩ := trail.upTo met
  refine ⟨sub.enters_of_off (.here (OnCycle.of_reaches ⟨entry, link, onward⟩ (.step link))) ?_,
    onward⟩
  -- the values from the entry on are closed under steps, so none passed earlier is among them
  have closed : ∀ other, Reaches next entry other → other ∈ later ++ [entry] := by
    intro other reached
    induction reached with
    | refl => simp
    | tail _ step ih =>
        rcases trail.next_mem split _ ih with rfl | ⟨after, inside, stepAfter⟩
        · rw [Option.some.inj (step.symm.trans link)]
          simp
        · rw [Option.some.inj (step.symm.trans stepAfter)]
          exact List.mem_append_left _ inside
  intro value member on
  have distinct := trail.nodup
  rw [split, List.append_cons] at distinct
  have back := on.reaches_back (sub.reaches_current value (List.mem_cons_of_mem _ member))
  exact (List.nodup_append.mp distinct).2.2 value (closed value back) value member rfl

end Trail

/-! ## Chains that end -/

/-- What a chain that comes to an end passes through behind its first value. -/
inductive Run (next : α → Option α) : α → List α → Prop
  | stop {value : α} (ended : next value = none) : Run next value []
  | step {value following : α} {rest : List α} (link : next value = some following)
      (run : Run next following rest) : Run next value (following :: rest)

namespace Run

variable {next : α → Option α}

/-- Chains are determined by the next value of their first one. -/
theorem unique {left right : α} {leftRun rightRun : List α} (same : next left = next right)
    (first : Run next left leftRun) (second : Run next right rightRun) : leftRun = rightRun := by
  induction first generalizing right rightRun with
  | stop ended =>
      cases second with
      | stop => rfl
      | step link => exact absurd (link.symm.trans (same.symm.trans ended)) (by simp)
  | step link _ ih =>
      cases second with
      | stop ended => exact absurd (link.symm.trans (same.trans ended)) (by simp)
      | step otherLink otherRun =>
          obtain rfl := Option.some.inj (link.symm.trans (same.trans otherLink))
          rw [ih rfl otherRun]

/-- A chain that ends is no longer than the keys on which next values depend. -/
theorem length_le {κ : Type} {key : α → Option κ} {keys : List κ}
    (byKey : ∀ left right, key left = key right → next left = next right)
    (keyed : ∀ value, next value ≠ none → ∃ name ∈ keys, key value = some name)
    {value : α} {chain : List α} (run : Run next value chain) : chain.length ≤ keys.length := by
  suffices passed : ∃ names : List κ, names.length = chain.length ∧ names.Nodup ∧
      ∀ name ∈ names, name ∈ keys ∧ ∃ other rest, key other = some name ∧
        Run next other rest ∧ rest.length ≤ chain.length by
    obtain ⟨names, count, distinct, inside⟩ := passed
    rw [← count]
    exact distinct.length_le_of_subset fun name member => (inside name member).1
  induction run with
  | stop => exact ⟨[], rfl, List.nodup_nil, by simp⟩
  | @step value following rest link run ih =>
      obtain ⟨names, count, distinct, inside⟩ := ih
      obtain ⟨name, member, named⟩ := keyed value (by simp [link])
      refine ⟨name :: names, by simp [count], List.nodup_cons.mpr ⟨?_, distinct⟩, ?_⟩
      · -- a value of the same key would start an equally long chain further on
        intro repeated
        obtain ⟨_, other, shorter, otherNamed, otherRun, short⟩ := inside name repeated
        have same := unique (byKey _ _ (named.trans otherNamed.symm)) (.step link run) otherRun
        rw [← same, List.length_cons] at short
        omega
      · intro found listed
        rcases List.mem_cons.mp listed with rfl | earlier
        · exact ⟨member, value, following :: rest, named, .step link run, Nat.le_refl _⟩
        · obtain ⟨known, other, shorter, otherNamed, otherRun, short⟩ := inside found earlier
          exact ⟨known, other, shorter, otherNamed, otherRun, Nat.le_succ_of_le short⟩

end Run

/-- The values behind a first one, up to a number. -/
def chainUpTo (next : α → Option α) : Nat → α → List α
  | 0, _ => []
  | count + 1, value =>
      match next value with
      | none => []
      | some following => following :: chainUpTo next count following

/-- A chain that ends is listed whole when the number is large enough. -/
theorem Run.chainUpTo_eq {next : α → Option α} {value : α} {chain : List α}
    (run : Run next value chain) {count : Nat} (enough : chain.length ≤ count) :
    chainUpTo next count value = chain := by
  induction run generalizing count with
  | stop ended => cases count <;> simp [chainUpTo, ended]
  | step link _ ih =>
      cases count with
      | zero => simp at enough
      | succ count =>
          simp only [chainUpTo, link]
          rw [ih (Nat.le_of_succ_le_succ enough)]

/-- The value so many steps behind a first one. -/
def chainAt (next : α → Option α) : Nat → α → Option α
  | 0, value => some value
  | steps + 1, value => (next value).bind (chainAt next steps)

theorem chainAt_add (next : α → Option α) (front behind : Nat) (value : α) :
    chainAt next (front + behind) value = (chainAt next front value).bind (chainAt next behind) := by
  induction front generalizing value with
  | zero => rw [Nat.zero_add, chainAt, Option.bind_some]
  | succ front ih =>
      rw [Nat.succ_add, chainAt, chainAt, Option.bind_assoc]
      exact Option.bind_congr fun following _ => ih following

theorem mem_chainUpTo_iff {next : α → Option α} {count : Nat} {first value : α} :
    value ∈ chainUpTo next count first ↔
      ∃ steps < count, chainAt next (steps + 1) first = some value := by
  induction count generalizing first with
  | zero => simp [chainUpTo]
  | succ count ih =>
      rw [chainUpTo]
      cases link : next first with
      | none => simp [chainAt, link]
      | some following =>
          rw [List.mem_cons, ih]
          simp only [chainAt, link, Option.bind_some]
          constructor
          · rintro (rfl | ⟨steps, few, reached⟩)
            · exact ⟨0, Nat.succ_pos _, rfl⟩
            · exact ⟨steps + 1, Nat.succ_lt_succ few, reached⟩
          · rintro ⟨_ | steps, few, reached⟩
            · exact Or.inl (Option.some.inj reached).symm
            · exact Or.inr ⟨steps, Nat.lt_of_succ_lt_succ few, reached⟩

section

variable {κ : Type} {next : α → Option α} {key : α → Option κ} {keys : List κ}
  (byKey : ∀ left right, key left = key right → next left = next right)
  (keyed : ∀ value, next value ≠ none → ∃ name ∈ keys, key value = some name)

include byKey keyed

/-- A chain that passes more values than there are keys has been at each further value before: two of
the values passed have one key, and are followed by the same values. -/
theorem exists_chainAt_lt {first value : α} {steps : Nat} (far : keys.length < steps)
    (reached : chainAt next steps first = some value) :
    ∃ fewer < steps, fewer ≠ 0 ∧ chainAt next fewer first = some value := by
  classical
  have passed : ∀ early < steps, ∃ current, chainAt next early first = some current ∧
      ∃ name ∈ keys, key current = some name := by
    intro early before
    obtain ⟨more, rfl⟩ := Nat.exists_eq_add_of_lt before
    rw [Nat.add_assoc, chainAt_add] at reached
    obtain ⟨current, here, onward⟩ := Option.bind_eq_some_iff.mp reached
    obtain ⟨following, link, _⟩ := Option.bind_eq_some_iff.mp onward
    exact ⟨current, here, keyed current (by simp [link])⟩
  obtain ⟨early, inFront, late, inFrontToo, differ, same⟩ :=
    Finset.exists_ne_map_eq_of_card_lt_of_maps_to (s := Finset.range steps)
      (t := (keys.map some).toFinset) (f := fun early => (chainAt next early first).bind key) (by
        rw [Finset.card_range]
        exact Nat.lt_of_le_of_lt (List.toFinset_card_le _) (by rwa [List.length_map])) (by
        intro early inFront
        obtain ⟨current, here, name, listed, named⟩ := passed early (Finset.mem_range.mp inFront)
        simp [here, listed, named])
  wlog ordered : early < late generalizing early late
  · exact this late inFrontToo early inFront differ.symm same.symm (by omega)
  obtain ⟨current, here, _⟩ := passed early (Finset.mem_range.mp inFront)
  obtain ⟨again, there, _⟩ := passed late (Finset.mem_range.mp inFrontToo)
  have link : next current = next again := byKey _ _ (by simpa [here, there] using same)
  obtain ⟨more, rfl⟩ := Nat.exists_eq_add_of_lt (Finset.mem_range.mp inFrontToo)
  refine ⟨early + (more + 1), by omega, by omega, ?_⟩
  rw [Nat.add_assoc, chainAt_add, there] at reached
  rw [chainAt_add, here, ← reached, Option.bind_some, Option.bind_some, chainAt, chainAt, link]

/-- Whatever a chain passes, it passes within as many steps as there are keys, whether it ends or
not. -/
theorem mem_chainUpTo_keys {first value : α} {count : Nat}
    (member : value ∈ chainUpTo next count first) :
    value ∈ chainUpTo next keys.length first := by
  obtain ⟨steps, within, reached⟩ := mem_chainUpTo_iff.mp member
  clear member within
  induction steps using Nat.strongRecOn with
  | ind steps ih =>
      by_cases few : steps < keys.length
      · exact mem_chainUpTo_iff.mpr ⟨steps, few, reached⟩
      · obtain ⟨fewer, before, moved, earlier⟩ :=
          exists_chainAt_lt byKey keyed (Nat.lt_succ_of_le (Nat.le_of_not_lt few)) reached
        obtain ⟨less, rfl⟩ := Nat.exists_eq_succ_of_ne_zero moved
        exact ih less (Nat.lt_of_succ_lt_succ before) earlier

end

end TypeCatalog
