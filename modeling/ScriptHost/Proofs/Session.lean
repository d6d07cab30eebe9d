import ScriptHost.Proofs.Recency
import ScriptHost.Session

/-!
# The compiled scripts of a session

Of the texts that operations compiled since the scripts were last dropped, the cache holds those
used last, as many as its capacity, and each with its own script. Nothing else changes the cache:
no run, no failure and no preparation.
-/

namespace ScriptHost

open Script

variable {ω : Type}

/-! ## What a text does to the cache -/

/-- The cache after a text has been asked for. -/
def Host.cacheAfter (h : Host ω) (c : Cache Program) (text : String) : Cache Program :=
  match c.find? text, h.compileText text with
  | some _, _ => c.use text
  | none, .error _ => c
  | none, .ok p =>
    if h.config.cacheCapacity = 0 then c else c.insert h.config.cacheCapacity text p

/-- Compiling a script asks for its full text. -/
theorem Host.compile_cache (h : Host ω) (script : String) (s : Store ω) :
    (h.compile script s).2.cache = h.cacheAfter s.cache (h.sourceOf script) := by
  rw [compile, cacheAfter]
  cases s.cache.find? (h.sourceOf script) with
  | some p => rfl
  | none =>
    cases h.compileText (h.sourceOf script) with
    | error f => rfl
    | ok p =>
      by_cases hzero : h.config.cacheCapacity = 0
      · simp [hzero]
      · simp [hzero, Store.record]

/-- Running a script keeps the cache. -/
theorem Prepared.run_cache (h : Host ω) (p : Prepared) (program : Program) (vars : Bindings)
    (s : Store ω) : (p.run h program vars s).2.cache = s.cache := by
  simp only [run]
  split <;> rfl

/-- Projecting the value of a run keeps the cache. -/
theorem Prepared.outcome_cache {α : Type} (h : Host ω) (p : Prepared) (vars : Bindings)
    (projection : Projection α) (s : Store ω) :
    (p.outcome h vars projection s).2.cache = s.cache := by
  rw [outcome]
  cases p.program h with
  | error f => rfl
  | ok program =>
    have hrun := p.run_cache h program vars s
    dsimp only
    split <;> simp_all

/-- An execution keeps the cache, with logging and without. -/
theorem Prepared.evaluate_cache {α : Type} (h : Host ω) (p : Prepared) (vars : Bindings)
    (options : ExecutionOptions) (projection : Projection α) (s : Store ω) :
    (p.evaluate h vars options projection s).2.cache = s.cache := by
  rw [evaluate]
  cases options.log with
  | false => exact p.outcome_cache h vars projection s
  | true =>
    have houtcome := p.outcome_cache h vars projection (s.record (.starting p.source))
    simp only [if_true]
    split <;> simpa [Store.record] using houtcome

/-- A batch asks for the text of its script and then only runs it. -/
theorem Batch.execute_cache (h : Host ω) (b : Batch) (names : List String) (rows : List Row)
    (options : ExecutionOptions) (s : Store ω) :
    (b.execute h names rows options s).2.cache =
      match b.script names with
      | .error _ => s.cache
      | .ok script => (h.compile script s).2.cache := by
  rw [execute]
  cases b.script names with
  | error f => rfl
  | ok script =>
    dsimp only
    split
    · next f s' heq => rw [heq]
    · next p s' heq => rw [heq, Prepared.evaluate_cache]

/-- A batch with typed results treats the cache like one without. -/
theorem Batch.evalInto_cache (h : Host ω) (b : Batch) (t : Target) (names : List String)
    (rows : List Row) (s : Store ω) :
    (b.evalInto h t names rows s).2.cache =
      (b.execute h names rows h.config.defaultOptions s).2.cache := by
  rw [evalInto, eval]
  split <;> simp_all

namespace Operation

/-- Whether an operation drops all compiled scripts. -/
def isClear : Operation → Bool
  | clear => true
  | _ => false

/-- The full text that an operation asks to compile. -/
def text? (h : Host ω) : Operation → Option String
  | compile script => some (h.sourceOf script)
  | batch b names _ _ => (b.script names).toOption.map h.sourceOf
  | batchInto b _ names _ => (b.script names).toOption.map h.sourceOf
  | _ => none

/-- The full text that an operation compiles successfully: each of these is a use. -/
def usedText? (h : Host ω) (op : Operation) : Option String :=
  (op.text? h).filter fun text => (h.compileText text).isOk

/-- The distinct texts used since the compiled scripts were last dropped, last used first. -/
def recentTexts (h : Host ω) (ops : List Operation) : List String :=
  ((ops.reverse.takeWhile (!·.isClear)).filterMap (usedText? h)).eraseDups

/-- All that an operation does to the cache. -/
theorem apply_cache (h : Host ω) (s : Store ω) (op : Operation) :
    (op.apply h s).cache =
      if op.isClear then s.cache.clear
      else match op.text? h with
        | none => s.cache
        | some text => h.cacheAfter s.cache text := by
  cases op with
  | prepare script => rfl
  | compile script => exact h.compile_cache script s
  | clear => rfl
  | run p vars options projection => exact p.evaluate_cache h vars options projection s
  | batch b names rows options =>
    simp only [apply, Batch.execute_cache, isClear, text?]
    cases b.script names with
    | error f => rfl
    | ok script => exact h.compile_cache script s
  | batchInto b t names rows =>
    simp only [apply, Batch.evalInto_cache, Batch.execute_cache, isClear, text?]
    cases b.script names with
    | error f => rfl
    | ok script => exact h.compile_cache script s

end Operation

/-! ## The order of use -/

/-- Dropping repetitions and picking elements commute. -/
theorem eraseDups_filter {α : Type} [BEq α] [LawfulBEq α] (p : α → Bool) (l : List α) :
    (l.filter p).eraseDups = l.eraseDups.filter p := by
  match l with
  | [] => rfl
  | a :: l =>
    have hcomm : (l.filter p).filter (fun b => !b == a) = (l.filter fun b => !b == a).filter p := by
      rw [List.filter_filter, List.filter_filter]
      simp only [Bool.and_comm]
    have hrest := eraseDups_filter p (l.filter fun b => !b == a)
    cases hp : p a with
    | true =>
      rw [List.filter_cons_of_pos hp, List.eraseDups_cons, List.eraseDups_cons,
        List.filter_cons_of_pos hp, hcomm, hrest]
    | false =>
      have hdrop : (l.filter p).filter (fun b => !b == a) = l.filter p := by
        refine List.filter_eq_self.mpr fun b hb => ?_
        have hne : b ≠ a := by
          rintro rfl
          rw [List.mem_filter, hp] at hb
          exact Bool.false_ne_true hb.2
        simpa using hne
      rw [List.filter_cons_of_neg (by simp [hp]), List.eraseDups_cons,
        List.filter_cons_of_neg (by simp [hp]), ← hrest, ← hcomm, hdrop]
termination_by l.length
decreasing_by exact Nat.lt_succ_of_le (List.length_filter_le _ l)

/-- A list without repetitions has none. -/
theorem nodup_eraseDups {α : Type} [BEq α] [LawfulBEq α] (l : List α) : l.eraseDups.Nodup := by
  match l with
  | [] => exact List.nodup_nil
  | a :: l =>
    rw [List.eraseDups_cons, eraseDups_filter]
    have hrest := nodup_eraseDups l
    exact List.nodup_cons.mpr ⟨by simp, hrest.filter _⟩

/-- Moving an element to the front only looks at one element more than are kept. -/
theorem take_filter_take {l : List String} (hnodup : l.Nodup) (n : ℕ) (key : String) :
    ((l.take (n + 1)).filter (· != key)).take n = (l.filter (· != key)).take n := by
  induction l generalizing n with
  | nil => rfl
  | cons a l ih =>
    obtain ⟨hmem, hrest⟩ := List.nodup_cons.mp hnodup
    rw [List.take_succ_cons]
    by_cases heq : a = key
    · have hall : ∀ b ∈ l, (b != key) = true :=
        fun b hb => bne_iff_ne.mpr fun h => hmem (heq ▸ h ▸ hb)
      have hself := List.filter_eq_self.mpr hall
      have hpart := List.filter_eq_self.mpr fun b (hb : b ∈ l.take n) =>
        hall b (List.mem_of_mem_take hb)
      simp [heq, hself, hpart, List.take_take]
    · cases n with
      | zero => simp
      | succ n => simp [heq, ih hrest n]

/-- Listing the texts after one more operation. -/
theorem Operation.recentTexts_append (h : Host ω) (ops : List Operation) (op : Operation) :
    recentTexts h (ops ++ [op]) =
      if op.isClear then []
      else match op.usedText? h with
        | none => recentTexts h ops
        | some text => text :: (recentTexts h ops).filter (· != text) := by
  rw [recentTexts, List.reverse_append, List.reverse_singleton, List.singleton_append]
  cases hclear : op.isClear with
  | true => simp [List.takeWhile, hclear]
  | false =>
    rw [List.takeWhile_cons_of_pos (by simp [hclear])]
    cases hused : op.usedText? h with
    | none =>
      rw [List.filterMap_cons_none hused]
      rfl
    | some text =>
      rw [List.filterMap_cons_some hused, List.eraseDups_cons, eraseDups_filter]
      rfl

/-! ## One operation -/

/-- What a cache remembers of the texts used, given the one used last first: the entries are listed
in the order of their last use. -/
structure Remembers (h : Host ω) (recent : List String) (uses : ℕ) (c : Cache Program)
    (ordered : List (CacheEntry Program)) : Prop where
  /-- The list is in the order of use, and holds what the cache holds. -/
  ranked : c.Ranked ordered
  /-- The keys are the texts used last, as many as the capacity. -/
  keys : ordered.map (·.key) = recent.take h.config.cacheCapacity
  /-- Each text is kept with its own script. -/
  compiled : ∀ e ∈ ordered, h.compileText e.key = .ok e.item
  /-- The clock counts uses only. -/
  clock_le : c.clock ≤ uses

/-- A text that does not compile is not in the cache, and asking for it changes nothing. -/
theorem Remembers.cacheAfter_error {h : Host ω} {recent : List String} {uses : ℕ}
    {c : Cache Program} {ordered : List (CacheEntry Program)}
    (hc : Remembers h recent uses c ordered) {text : String} {f : Failure}
    (hfail : h.compileText text = .error f) : h.cacheAfter c text = c := by
  cases hfound : c.find? text with
  | none => simp only [Host.cacheAfter, hfound, hfail]
  | some p =>
    obtain ⟨e, he, rfl, -⟩ := hc.ranked.find?_eq_some_iff.mp hfound
    rw [hc.compiled e he] at hfail
    cases hfail

/-- A text that is used comes first, and what is beyond the capacity is forgotten. -/
theorem Remembers.cacheAfter_ok {h : Host ω} {recent : List String} {uses : ℕ}
    {c : Cache Program} {ordered : List (CacheEntry Program)}
    (hc : Remembers h recent uses c ordered) (hnodup : recent.Nodup) {text : String} {p : Program}
    (hok : h.compileText text = .ok p) :
    ∃ after, Remembers h (text :: recent.filter (· != text)) (uses + 1)
      (h.cacheAfter c text) after := by
  have hclock := hc.clock_le
  have hlength : ordered.length ≤ h.config.cacheCapacity := by
    rw [← List.length_map (·.key), hc.keys]
    exact List.length_take_le _ _
  -- Both a hit and a new entry leave these keys.
  have hkeys : (text :: (ordered.map (·.key)).filter (· != text)).take h.config.cacheCapacity =
      (text :: recent.filter (· != text)).take h.config.cacheCapacity := by
    rw [hc.keys]
    cases h.config.cacheCapacity with
    | zero => rfl
    | succ n => rw [List.take_succ_cons, List.take_succ_cons, take_filter_take hnodup]
  cases hfound : c.find? text with
  | some q =>
    obtain ⟨e, he, rfl, -⟩ := hc.ranked.find?_eq_some_iff.mp hfound
    have hafter : h.cacheAfter c e.key = c.use e.key := by
      simp only [Host.cacheAfter, hfound]
    rw [hafter]
    refine ⟨_, hc.ranked.use he, ?_, ?_, Nat.succ_le_succ hclock⟩
    · rw [← hkeys, List.take_of_length_le]
      · simp [List.filter_map, Function.comp_def]
      · have hshorter : (ordered.filter (·.key != e.key)).length < ordered.length :=
          List.length_filter_lt_length_iff_exists.mpr ⟨e, he, by simp⟩
        rw [List.filter_map, List.length_cons, List.length_map]
        exact Nat.le_trans hshorter hlength
    · intro other hmem
      rcases List.mem_cons.mp hmem with rfl | hmem
      · exact hc.compiled e he
      · exact hc.compiled other (List.mem_of_mem_filter hmem)
  | none =>
    have hnew := hc.ranked.find?_eq_none_iff.mp hfound
    have hkept : (ordered.map (·.key)).filter (· != text) = ordered.map (·.key) :=
      List.filter_eq_self.mpr fun key hkey => bne_iff_ne.mpr fun heq => hnew (heq ▸ hkey)
    rw [hkept] at hkeys
    by_cases hzero : h.config.cacheCapacity = 0
    · have hafter : h.cacheAfter c text = c := by
        simp only [Host.cacheAfter, hfound, hok, if_pos hzero]
      have hempty : ordered = [] := List.length_eq_zero_iff.mp (by omega)
      rw [hafter]
      exact ⟨ordered, hc.ranked, by simp [hempty, hzero], hc.compiled, by omega⟩
    · have hafter : h.cacheAfter c text = c.insert h.config.cacheCapacity text p := by
        simp only [Host.cacheAfter, hfound, hok, if_neg hzero]
      rw [hafter]
      refine ⟨_, hc.ranked.insert h.config.cacheCapacity p hnew, ?_, ?_,
        Nat.succ_le_succ hclock⟩
      · rw [List.map_take, List.map_cons, hkeys]
      · intro other hmem
        rcases List.mem_cons.mp (List.mem_of_mem_take hmem) with rfl | hmem
        · exact hok
        · exact hc.compiled other hmem

namespace Operation

/-- One operation takes the cache from what it remembers of the texts used so far to what it
remembers of those used then. -/
theorem apply_remembers {h : Host ω} {s : Store ω} {ops : List Operation} {uses : ℕ}
    {ordered : List (CacheEntry Program)}
    (hs : Remembers h (recentTexts h ops) uses s.cache ordered) (op : Operation) :
    ∃ after, Remembers h (recentTexts h (ops ++ [op])) (uses + (op.usedText? h).toList.length)
      (op.apply h s).cache after := by
  rw [recentTexts_append, apply_cache]
  have hlater : ∀ {more : ℕ}, Remembers h (recentTexts h ops) (uses + more) s.cache ordered :=
    ⟨hs.ranked, hs.keys, hs.compiled, Nat.le_add_right_of_le hs.clock_le⟩
  cases hclear : op.isClear with
  | true =>
    refine ⟨[], .clear s.cache, by simp, by simp, ?_⟩
    exact Nat.le_add_right_of_le hs.clock_le
  | false =>
    cases htext : op.text? h with
    | none =>
      have hused : op.usedText? h = none := by rw [usedText?, htext]; rfl
      rw [hused]
      exact ⟨ordered, hlater⟩
    | some text =>
      cases hcompiled : h.compileText text with
      | error f =>
        have hused : op.usedText? h = none := by
          simp [usedText?, htext, hcompiled, Except.isOk, Except.toBool]
        simp only [hused, hs.cacheAfter_error hcompiled]
        exact ⟨ordered, hlater⟩
      | ok p =>
        have hused : op.usedText? h = some text := by
          simp [usedText?, htext, hcompiled, Except.isOk, Except.toBool]
        rw [hused]
        exact hs.cacheAfter_ok (nodup_eraseDups _) hcompiled

/-- A new store remembers, after operations, the texts they used. -/
theorem applyAll_remembers (h : Host ω) (world : ω) (log : List LogEvent)
    (ops : List Operation) :
    ∃ ordered, Remembers h (recentTexts h ops) (ops.filterMap (usedText? h)).length
      (applyAll h { world, log } ops).cache ordered := by
  induction ops using List.reverseRecOn with
  | nil => exact ⟨[], .empty, by simp [recentTexts], by simp, Nat.le_refl 0⟩
  | append_singleton ops op ih =>
    obtain ⟨ordered, hordered⟩ := ih
    obtain ⟨after, hafter⟩ := apply_remembers hordered op
    have huses : ((ops ++ [op]).filterMap (usedText? h)).length =
        (ops.filterMap (usedText? h)).length + (op.usedText? h).toList.length := by
      cases hused : op.usedText? h <;> simp [hused]
    refine ⟨after, ?_⟩
    rw [applyAll, List.foldl_append, huses]
    exact hafter

/-- An operation that neither uses a text nor drops the scripts keeps the cache. -/
theorem apply_cache_of_unused {h : Host ω} {s : Store ω} {recent : List String} {uses : ℕ}
    {ordered : List (CacheEntry Program)} (hs : Remembers h recent uses s.cache ordered)
    {op : Operation} (hclear : op.isClear = false) (hused : op.usedText? h = none) :
    (op.apply h s).cache = s.cache := by
  rw [apply_cache, hclear]
  cases htext : op.text? h with
  | none => rfl
  | some text =>
    cases hcompiled : h.compileText text with
    | error f => exact hs.cacheAfter_error hcompiled
    | ok p => simp [usedText?, htext, hcompiled, Except.isOk, Except.toBool] at hused

/-- **The cache of compiled scripts keeps the texts used last.** After any operations on a new host
the entries, listed in the order of their last use, have as keys the distinct texts that were
compiled successfully since the scripts were last dropped, last used first and as many as the
capacity; they were used at different times before the present one, and each holds the script of
its own text. Operations that compile nothing successfully and drop nothing keep the cache, a failed
compilation keeps the whole store, and a batch treats the cache as compiling its script does. -/
theorem applyAll_cache (h : Host ω) (world : ω) (log : List LogEvent) (ops : List Operation) :
    let s := applyAll h { world, log } ops
    (∃ ordered : List (CacheEntry Program),
      ordered.Perm s.cache.entries ∧
      ordered.map (·.key) = (recentTexts h ops).take h.config.cacheCapacity ∧
      ordered.Pairwise (fun later earlier => earlier.lastUse < later.lastUse) ∧
      (∀ e ∈ ordered, e.lastUse < s.cache.clock ∧ h.compileText e.key = .ok e.item) ∧
      s.cache.clock ≤ (ops.filterMap (usedText? h)).length) ∧
    s.cache.size = min h.config.cacheCapacity (recentTexts h ops).length ∧
    (h.config.cacheCapacity = 0 → s.cache.entries = []) ∧
    (∀ op : Operation, op.isClear = false → op.usedText? h = none →
      (op.apply h s).cache = s.cache) ∧
    (∀ script f, (h.compile script s).1 = .error f → (h.compile script s).2 = s) ∧
    (∀ (b : Batch) names rows options script, b.script names = .ok script →
      (apply h s (.batch b names rows options)).cache = (apply h s (.compile script)).cache) := by
  intro s
  obtain ⟨ordered, hordered⟩ := applyAll_remembers h world log ops
  have hsize : s.cache.size = min h.config.cacheCapacity (recentTexts h ops).length := by
    rw [Cache.size, ← hordered.ranked.perm.length_eq, ← List.length_map (·.key), hordered.keys,
      List.length_take]
  refine ⟨⟨ordered, hordered.ranked.perm, hordered.keys, hordered.ranked.inOrder.descending,
    fun e he => ⟨hordered.ranked.lt_clock e he, hordered.compiled e he⟩, hordered.clock_le⟩,
    hsize, ?_, fun op => apply_cache_of_unused hordered, ?_, ?_⟩
  · intro hzero
    rw [hzero, Nat.zero_min] at hsize
    exact List.length_eq_zero_iff.mp hsize
  · intro script f hfail
    rw [Host.compile] at hfail ⊢
    split at hfail
    · cases hfail
    · split at hfail
      · rfl
      · split at hfail <;> cases hfail
  · intro b names rows options script hscript
    rw [apply, apply, Batch.execute_cache, hscript]

end Operation

end ScriptHost
