import TypeCatalog.Proofs.RecordComposition

/-! # Effective members

The effective members of a type are put together level by level: those that the type declares, and
of the effective members of its base those that it does not declare again. That is the same as to go
through all members of the chain once and keep the first of each name
(`TypeCatalog.Index.effectiveMembers_of_run`).
-/

namespace TypeCatalog

/-! ## The first of each name -/

section

variable {α : Type} (name : α → String)

/-- Names that have been seen leave items out and change nothing else. -/
theorem firstOfEachFrom_eq_filter (seen : List String) (items : List α) :
    firstOfEachFrom name seen items =
      (firstOfEach name items).filter fun item => name item ∉ seen := by
  induction items generalizing seen with
  | nil => rfl
  | cons item rest ih =>
      have first : firstOfEach name (item :: rest) =
          item :: (firstOfEach name rest).filter fun other => name other ∉ [name item] := by
        rw [firstOfEach, firstOfEachFrom, if_neg (by simp), ih [name item]]
      rw [first, firstOfEachFrom]
      by_cases old : name item ∈ seen
      · rw [if_pos (List.contains_iff_mem.mpr old), ih, List.filter_cons_of_neg (by simpa using old),
          List.filter_filter]
        refine List.filter_congr fun other _ => ?_
        by_cases same : name other = name item
        · simp [same, old]
        · simp [same]
      · rw [if_neg (mt List.contains_iff_mem.mp old), ih,
          List.filter_cons_of_pos (by simpa using old), List.filter_filter]
        refine congrArg _ (List.filter_congr fun other _ => ?_)
        simp [not_or, Bool.and_comm]

theorem firstOfEach_cons (item : α) (rest : List α) :
    firstOfEach name (item :: rest) =
      item :: (firstOfEach name rest).filter fun other => name other ≠ name item := by
  rw [firstOfEach, firstOfEachFrom, if_neg (by simp), firstOfEachFrom_eq_filter]
  simp

/-- Of two lists the second one adds the names that the first one does not have. -/
theorem firstOfEach_append (front behind : List α) :
    firstOfEach name (front ++ behind) = firstOfEach name front ++
      (firstOfEach name behind).filter fun item => name item ∉ front.map name := by
  induction front with
  | nil => simp
  | cons item rest ih =>
      rw [List.cons_append, firstOfEach_cons, firstOfEach_cons, ih, List.filter_append,
        List.filter_filter, List.cons_append]
      simp [not_or]

/-- To keep the first of each name is to erase every item that has the name of an earlier one. -/
theorem firstOfEachFrom_eq_eraseDupsBy (seen : List String) (items : List α) :
    firstOfEachFrom name seen items = (items.filter fun item => name item ∉ seen).eraseDupsBy
      fun later earlier => name later == name earlier := by
  induction items generalizing seen with
  | nil => simp [firstOfEachFrom]
  | cons item rest ih =>
      rw [firstOfEachFrom]
      by_cases old : name item ∈ seen
      · rw [if_pos (List.contains_iff_mem.mpr old), List.filter_cons_of_neg (by simpa using old), ih]
      · rw [if_neg (mt List.contains_iff_mem.mp old), List.filter_cons_of_pos (by simpa using old),
          List.eraseDupsBy_cons, ih, List.filter_filter]
        simp [not_or]

theorem firstOfEach_eq_eraseDupsBy (items : List α) :
    firstOfEach name items = items.eraseDupsBy fun later earlier => name later == name earlier := by
  simp [firstOfEach, firstOfEachFrom_eq_eraseDupsBy]

/-- Of every name that occurs there is exactly one item among the first of each name, and it is the
first item with that name. -/
theorem filter_firstOfEach (wanted : String) (items : List α) :
    ((firstOfEach name items).filter fun item => name item == wanted) =
      (items.find? fun item => name item == wanted).toList := by
  induction items with
  | nil => rfl
  | cons item rest ih =>
      rw [firstOfEach_cons, List.find?_cons]
      by_cases isWanted : name item = wanted
      · subst isWanted
        simp [List.filter_filter]
      · have others : ∀ other : α, (name other == wanted && decide (name other ≠ name item)) =
            (name other == wanted) := by
          intro other
          by_cases same : name other = wanted
          · simp [same, Ne.symm isWanted]
          · simp [same]
        rw [List.filter_cons_of_neg (by simpa using isWanted), List.filter_filter,
          List.filter_congr fun other _ => others other, ih, beq_false_of_ne isWanted]

end

/-! ## Members along a chain -/

namespace Index

variable {index : Index}

/-- The members of a type are those of its whole chain of bases when that ends. -/
theorem allMembers_of_run {symbol : TypeSymbol} {chain : List TypeSymbol}
    (run : Run index.base? symbol chain) :
    index.allMembers symbol = (symbol :: chain).flatMap index.declaredMembers := by
  rw [allMembers_eq, ancestors_of_run run, List.flatMap_cons]

theorem effectiveMembers_eq (index : Index) (symbol : TypeSymbol) :
    index.effectiveMembers symbol = firstOfEach Member.name (index.allMembers symbol) := rfl

/-- The effective members of a type are its own and, under other names, those of its base. -/
theorem effectiveMembers_eq_append {symbol : TypeSymbol} {chain : List TypeSymbol}
    (run : Run index.base? symbol chain) :
    index.effectiveMembers symbol = firstOfEach Member.name (index.declaredMembers symbol) ++
      ((index.base? symbol).elim [] index.effectiveMembers).filter fun member =>
        member.name ∉ (index.declaredMembers symbol).map Member.name := by
  cases run with
  | stop ended =>
      rw [effectiveMembers_eq, allMembers_of_base?_eq_none ended, ended, Option.elim_none,
        List.filter_nil, List.append_nil]
  | step link further =>
      rw [effectiveMembers_eq, allMembers_of_run (.step link further), List.flatMap_cons,
        ← allMembers_of_run further, firstOfEach_append, link, Option.elim_some,
        effectiveMembers_eq]

/-- **Effective members compose along the chain of bases.** Where the chain from a type ends, its
effective members are the first of each name that it declares, and behind them those effective
members of its base whose names it does not declare. They are also the first of each name among all
members of the chain, so every name of the chain occurs once, as the type nearest to the first one
declares it. -/
theorem effectiveMembers_of_run {index : Index} {symbol : TypeSymbol} {chain : List TypeSymbol}
    (run : Run index.base? symbol chain) :
    let own := index.declaredMembers symbol
    let inherited := (index.base? symbol).elim [] index.effectiveMembers
    let sameName := fun later earlier : Member => later.name == earlier.name
    index.effectiveMembers symbol =
        own.eraseDupsBy sameName ++
          inherited.filter (fun member => member.name ∉ own.map Member.name) ∧
      index.allMembers symbol = (symbol :: chain).flatMap index.declaredMembers ∧
      index.effectiveMembers symbol = (index.allMembers symbol).eraseDupsBy sameName ∧
      ∀ name, ((index.effectiveMembers symbol).filter fun member => member.name == name) =
        ((symbol :: chain).findSome? fun type =>
          (index.declaredMembers type).find? fun member => member.name == name).toList := by
  intro own inherited sameName
  have whole := allMembers_of_run run
  refine ⟨?_, whole, ?_, ?_⟩
  · rw [effectiveMembers_eq_append run, firstOfEach_eq_eraseDupsBy]
  · rw [effectiveMembers_eq, firstOfEach_eq_eraseDupsBy]
  · intro name
    rw [effectiveMembers_eq, filter_firstOfEach, whole, List.find?_flatMap]

end Index

/-! ## Names that are declared several times -/

namespace Sample

/-- A field of a type, without more. -/
def fieldOf (owner name : String) : Member :=
  ⟨owner ++ "." ++ name, name, owner, .field, none, [], none⟩

/-- Three types of which each derives from the one before it. The second declares a name of the first
twice and another name, and the third declares that one again. -/
def repeating : Index :=
  ((Index.empty.addType (.externalType "A") none [fieldOf "A" "x", fieldOf "A" "y"]).addType
    (.externalType "B") (some (.externalType "A"))
      [fieldOf "B" "y", fieldOf "B" "z", fieldOf "B" "y"]).addType
    (.externalType "C") (some (.externalType "B")) [fieldOf "C" "z"]

end Sample

namespace Index

/-- The last type of the sample takes all but one effective member of its base over. -/
theorem effectiveMembers_of_repeating :
    let index := Sample.repeating
    let child := TypeSymbol.externalType "C"
    let base := TypeSymbol.externalType "B"
    Run index.base? child [base, .externalType "A"] ∧
      (index.effectiveMembers base).map Member.id = ["B.y", "B.z", "A.x"] ∧
      index.effectiveMembers child = Sample.fieldOf "C" "z" ::
        (index.effectiveMembers base).filter (fun member => member.name ∉ ["z"]) ∧
      ((index.effectiveMembers child).filter fun member => member.name == "y") =
        [Sample.fieldOf "B" "y"] := by
  intro index child base
  have run : Run index.base? child [base, .externalType "A"] :=
    .step rfl (.step rfl (.stop rfl))
  obtain ⟨composed, _, _, once⟩ := effectiveMembers_of_run run
  exact ⟨run, by decide +kernel, composed, (once "y").trans rfl⟩

end Index

end TypeCatalog
