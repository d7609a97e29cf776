import Mathlib

/-!
# Sources that are read in portions

A source holds elements and hands them out in portions: a request names how many it wants at most,
and the answer is some of them, the end, or an exception. `Source` is the contract of a source that
makes progress: it never skips, repeats or reorders, and it reports the end exactly when nothing is
left. How large the portions are is up to the source.

Two things are built on sources again and again. `collect` asks until it has enough, and on a
`Source` it gets what it wants whatever the portions. `Prefixed` puts elements that were taken out
already in front of a source, and is a source again.
-/

namespace JFlac.Lib

universe u v w

/-- A request for one element, or for a portion of at most `n`. -/
inductive ReadRequest where
  | one
  | upTo (n : ℕ)
  deriving DecidableEq, Repr

/-- The number of elements a request asks for. -/
def ReadRequest.size : ReadRequest → ℕ
  | .one => 1
  | .upTo n => n

/-- How a read ends. -/
inductive ReadAnswer (ε : Type u) (α : Type v) where
  | data (elements : List α)
  | ended
  | raised (e : ε)
  deriving DecidableEq, Repr

/-- The elements an answer brings. -/
def ReadAnswer.elements {ε : Type u} {α : Type v} : ReadAnswer ε α → List α
  | .data elements => elements
  | _ => []

section

variable {ε : Type u} {α : Type v}

@[simp] theorem elements_data (xs : List α) : (ReadAnswer.data xs : ReadAnswer ε α).elements = xs :=
  rfl

@[simp] theorem elements_ended : (ReadAnswer.ended : ReadAnswer ε α).elements = [] := rfl

@[simp] theorem elements_raised (e : ε) : (ReadAnswer.raised e : ReadAnswer ε α).elements = [] :=
  rfl

end

/-- A function that answers requests and moves on. -/
abbrev Reader (ε : Type u) (α : Type v) (σ : Type w) := σ → ReadRequest → ReadAnswer ε α × σ

variable {ε : Type u} {α : Type v} {σ : Type w}

/-- A reader that makes progress on every request, and the elements it has yet to deliver. -/
structure Source (ε : Type u) (α : Type v) (σ : Type w) where
  read : Reader ε α σ
  pending : σ → List α
  read_zero : ∀ s, read s (.upTo 0) = (.data [], s)
  read_nil : ∀ s request, 0 < request.size → pending s = [] →
    (read s request).1 = .ended ∧ pending (read s request).2 = []
  read_cons : ∀ s request, 0 < request.size → pending s ≠ [] →
    ∃ k, 0 < k ∧ k ≤ request.size ∧ k ≤ (pending s).length ∧
      (read s request).1 = .data ((pending s).take k) ∧
      pending (read s request).2 = (pending s).drop k

/-! ## Runs of requests -/

/-- The answers to a list of requests. -/
def answers (read : Reader ε α σ) : σ → List ReadRequest → List (ReadRequest × ReadAnswer ε α)
  | _, [] => []
  | s, request :: requests =>
    (request, (read s request).1) :: answers read (read s request).2 requests

/-- The answers deliver these elements from the first one on: each brings the next ones, at least
one if any was asked for and at most as many as were asked for, and the end is reported only when
all were delivered. -/
def Delivers : List α → List (ReadRequest × ReadAnswer ε α) → Prop
  | _, [] => True
  | elements, (request, .data portion) :: rest =>
    portion.length ≤ request.size ∧ (0 < request.size → portion ≠ []) ∧
      ∃ remaining, elements = portion ++ remaining ∧ Delivers remaining rest
  | elements, (request, .ended) :: rest =>
    0 < request.size ∧ elements = [] ∧ Delivers [] rest
  | _, (_, .raised _) :: _ => False

namespace Source

variable (source : Source ε α σ)

/-- Every run of a source delivers what is pending. -/
theorem delivers (s : σ) (requests : List ReadRequest) :
    Delivers (source.pending s) (answers source.read s requests) := by
  induction requests generalizing s with
  | nil => trivial
  | cons request requests ih =>
    rw [answers]
    by_cases hsize : 0 < request.size
    swap
    · obtain rfl : request = .upTo 0 := by
        cases request with
        | one => exact absurd Nat.one_pos hsize
        | upTo n => rw [show n = 0 by simpa [ReadRequest.size] using hsize]
      rw [source.read_zero s]
      exact ⟨Nat.le_refl _, fun h => absurd h hsize, source.pending s, rfl, ih s⟩
    by_cases hpending : source.pending s = []
    · obtain ⟨hread, hnext⟩ := source.read_nil s request hsize hpending
      rw [hread]
      refine ⟨hsize, hpending, ?_⟩
      rw [← hnext]
      exact ih _
    · obtain ⟨k, hpos, hle, hlength, hread, hnext⟩ := source.read_cons s request hsize hpending
      have hportion : ((source.pending s).take k).length = k := by
        rw [List.length_take, Nat.min_eq_left hlength]
      rw [hread]
      refine ⟨by rw [hportion]; exact hle, fun _ hnil => ?_, (source.pending s).drop k,
        (List.take_append_drop k _).symm, ?_⟩
      · rw [hnil, List.length_nil] at hportion
        omega
      · rw [← hnext]
        exact ih _

end Source

/-! ## Collecting -/

/-- Asks until `wanted` elements are there or the end is reached. A portion of no elements raises
`stalled` if it is given, and otherwise the loop asks again. The result is `none` when the rounds
do not suffice. -/
def collect (stalled : Option ε) (read : Reader ε α σ) (wanted : ℕ) :
    ℕ → List α → σ → Option (Except ε (List α)) × σ
  | 0, _, s => (none, s)
  | rounds + 1, got, s =>
    if got.length < wanted then
      let answer := read s (.upTo (wanted - got.length))
      match answer.1 with
      | .ended => (some (.ok got), answer.2)
      | .raised e => (some (.error e), answer.2)
      | .data portion =>
        match portion, stalled with
        | [], some e => (some (.error e), answer.2)
        | portion, _ => collect stalled read wanted rounds (got ++ portion) answer.2
    else (some (.ok got), s)

section Collect

variable (stalled : Option ε) {wanted : ℕ}

theorem collect_full (read : Reader ε α σ) (rounds : ℕ) {got : List α}
    (h : wanted ≤ got.length) (s : σ) :
    collect stalled read wanted (rounds + 1) got s = (some (.ok got), s) := by
  rw [collect, if_neg (by omega)]

/-- A portion is kept unless it is empty and counts as a stall. -/
theorem collect_data {read : Reader ε α σ} (rounds : ℕ) {got portion : List α} {s : σ}
    (h : got.length < wanted) (hportion : portion ≠ [] ∨ stalled = none)
    (hread : (read s (.upTo (wanted - got.length))).1 = .data portion) :
    collect stalled read wanted (rounds + 1) got s =
      collect stalled read wanted rounds (got ++ portion)
        (read s (.upTo (wanted - got.length))).2 := by
  rw [collect, if_pos h]
  dsimp only
  rw [hread]
  cases portion with
  | cons a rest => rfl
  | nil =>
    obtain rfl := hportion.resolve_left (fun h => h rfl)
    rfl

theorem collect_ended {read : Reader ε α σ} (rounds : ℕ) {got : List α} {s : σ}
    (h : got.length < wanted) (hread : (read s (.upTo (wanted - got.length))).1 = .ended) :
    collect stalled read wanted (rounds + 1) got s =
      (some (.ok got), (read s (.upTo (wanted - got.length))).2) := by
  rw [collect, if_pos h]
  dsimp only
  rw [hread]

theorem collect_raised {read : Reader ε α σ} (rounds : ℕ) {got : List α} {s : σ} {e : ε}
    (h : got.length < wanted) (hread : (read s (.upTo (wanted - got.length))).1 = .raised e) :
    collect stalled read wanted (rounds + 1) got s =
      (some (.error e), (read s (.upTo (wanted - got.length))).2) := by
  rw [collect, if_pos h]
  dsimp only
  rw [hread]

/-- Whatever its portions, a source gives the next elements, as many as are wanted or there are. -/
theorem Source.collect_eq (source : Source ε α σ) {rounds : ℕ} (got : List α) (s : σ)
    (hrounds : wanted - got.length < rounds) :
    ∃ s', collect stalled source.read wanted rounds got s =
        (some (.ok (got ++ (source.pending s).take (wanted - got.length))), s') ∧
      source.pending s' = (source.pending s).drop (wanted - got.length) := by
  induction rounds generalizing got s with
  | zero => omega
  | succ rounds ih =>
    by_cases hfull : got.length < wanted
    swap
    · refine ⟨s, ?_, ?_⟩
      · rw [collect_full stalled source.read rounds (by omega) s,
          Nat.sub_eq_zero_of_le (by omega), List.take_zero, List.append_nil]
      · rw [Nat.sub_eq_zero_of_le (by omega), List.drop_zero]
    have hsize : 0 < (ReadRequest.upTo (wanted - got.length)).size := by
      show 0 < wanted - got.length
      omega
    by_cases hpending : source.pending s = []
    · obtain ⟨hread, hnext⟩ := source.read_nil s _ hsize hpending
      refine ⟨(source.read s (.upTo (wanted - got.length))).2, ?_, ?_⟩
      · rw [collect_ended stalled rounds hfull hread, hpending, List.take_nil, List.append_nil]
      · rw [hnext, hpending, List.drop_nil]
    · obtain ⟨k, hpos, hle, hlength, hread, hnext⟩ := source.read_cons s _ hsize hpending
      change k ≤ wanted - got.length at hle
      have hportion : ((source.pending s).take k).length = k := by
        rw [List.length_take, Nat.min_eq_left hlength]
      have hgrown : (got ++ (source.pending s).take k).length = got.length + k := by
        rw [List.length_append, hportion]
      obtain ⟨s', hrest, hs'⟩ := ih (got ++ (source.pending s).take k)
        (source.read s (.upTo (wanted - got.length))).2 (by omega)
      refine ⟨s', ?_, ?_⟩
      · have hne : (source.pending s).take k ≠ [] := fun hnil => by
          rw [hnil, List.length_nil] at hportion
          omega
        rw [collect_data stalled rounds hfull (.inl hne) hread, hrest, hgrown, hnext,
          List.append_assoc, ← List.take_add]
        congr 6
        omega
      · rw [hs', hgrown, hnext, List.drop_drop]
        congr 1
        omega

/-- A loop in which every portion brings an element or raises needs no more rounds than elements. -/
theorem collect_ends (read : Reader ε α σ)
    (hprogress : stalled ≠ none ∨ ∀ s n, 0 < n → (read s (.upTo n)).1 ≠ .data [])
    {rounds : ℕ} {got : List α} (s : σ) (hrounds : wanted - got.length < rounds) :
    (collect stalled read wanted rounds got s).1 ≠ none := by
  induction rounds generalizing got s with
  | zero => omega
  | succ rounds ih =>
    by_cases hfull : got.length < wanted
    swap
    · rw [collect_full stalled read rounds (by omega) s]
      exact nofun
    cases hread : (read s (.upTo (wanted - got.length))).1 with
    | ended =>
      rw [collect_ended stalled rounds hfull hread]
      exact nofun
    | raised e =>
      rw [collect_raised stalled rounds hfull hread]
      exact nofun
    | data portion =>
      cases portion with
      | nil =>
        rcases hprogress with hstalled | hprogress
        · obtain ⟨e, rfl⟩ := Option.ne_none_iff_exists'.mp hstalled
          rw [collect, if_pos hfull]
          dsimp only
          rw [hread]
          exact nofun
        · exact absurd hread (hprogress s _ (by omega))
      | cons a rest =>
        rw [collect_data stalled rounds hfull (.inl (by simp)) hread]
        refine ih _ ?_
        rw [List.length_append, List.length_cons]
        omega

/-- What every read preserves, for the elements collected so far, holds when the loop stops. -/
theorem collect_invariant (P : List α → σ → Prop) (read : Reader ε α σ)
    (hstep : ∀ got s, got.length < wanted → P got s →
      P (got ++ (read s (.upTo (wanted - got.length))).1.elements)
        (read s (.upTo (wanted - got.length))).2)
    (rounds : ℕ) {got : List α} {s : σ} (h : P got s) :
    ∃ got', P got' (collect stalled read wanted rounds got s).2 ∧
      ∀ result, (collect stalled read wanted rounds got s).1 = some (.ok result) →
        result = got' := by
  induction rounds generalizing got s with
  | zero => exact ⟨got, h, nofun⟩
  | succ rounds ih =>
    by_cases hfull : got.length < wanted
    swap
    · rw [collect_full stalled read rounds (by omega) s]
      exact ⟨got, h, fun result hresult => by cases hresult; rfl⟩
    have hnext := hstep got s hfull h
    cases hread : (read s (.upTo (wanted - got.length))).1 with
    | ended =>
      rw [hread, elements_ended, List.append_nil] at hnext
      rw [collect_ended stalled rounds hfull hread]
      exact ⟨got, hnext, fun result hresult => by cases hresult; rfl⟩
    | raised e =>
      rw [hread, elements_raised, List.append_nil] at hnext
      rw [collect_raised stalled rounds hfull hread]
      exact ⟨got, hnext, nofun⟩
    | data portion =>
      rw [hread] at hnext
      by_cases hempty : portion = [] ∧ stalled ≠ none
      · obtain ⟨rfl, hstalled⟩ := hempty
        obtain ⟨e, rfl⟩ := Option.ne_none_iff_exists'.mp hstalled
        rw [collect, if_pos hfull]
        dsimp only
        rw [hread]
        exact ⟨_, hnext, nofun⟩
      · have hportion : portion ≠ [] ∨ stalled = none := by
          by_contra hneither
          push Not at hneither
          exact hempty hneither
        rw [collect_data stalled rounds hfull hportion hread]
        exact ih hnext

end Collect

/-! ## Elements put back in front -/

/-- A reader with elements to be read before its own. -/
structure Prefixed (α : Type v) (σ : Type w) where
  front : List α
  rest : σ
  deriving DecidableEq, Repr

/-- Reads the elements in front first; a portion may continue with those behind. -/
def readPrefixed (read : Reader ε α σ) : Reader ε α (Prefixed α σ)
  | ⟨a :: front, rest⟩, .one => (.data [a], ⟨front, rest⟩)
  | ⟨[], rest⟩, .one => ((read rest .one).1, ⟨[], (read rest .one).2⟩)
  | ⟨front, rest⟩, .upTo n =>
    if n ≤ front.length then (.data (front.take n), ⟨front.drop n, rest⟩)
    else
      let answer := read rest (.upTo (n - front.length))
      (match answer.1 with
        | .ended => if front = [] then .ended else .data front
        | .raised e => .raised e
        | .data more => .data (front ++ more),
        ⟨[], answer.2⟩)

section Prefixed

variable {read : Reader ε α σ} {front : List α} {rest : σ} {n : ℕ}

theorem readPrefixed_within (h : n ≤ front.length) :
    readPrefixed read ⟨front, rest⟩ (.upTo n) = (.data (front.take n), ⟨front.drop n, rest⟩) := by
  rw [readPrefixed, if_pos h]

theorem readPrefixed_ended (h : front.length < n)
    (hread : (read rest (.upTo (n - front.length))).1 = .ended) :
    readPrefixed read ⟨front, rest⟩ (.upTo n) =
      (if front = [] then .ended else .data front,
        ⟨[], (read rest (.upTo (n - front.length))).2⟩) := by
  rw [readPrefixed, if_neg (by omega)]
  dsimp only
  rw [hread]

theorem readPrefixed_data {more : List α} (h : front.length < n)
    (hread : (read rest (.upTo (n - front.length))).1 = .data more) :
    readPrefixed read ⟨front, rest⟩ (.upTo n) =
      (.data (front ++ more), ⟨[], (read rest (.upTo (n - front.length))).2⟩) := by
  rw [readPrefixed, if_neg (by omega)]
  dsimp only
  rw [hread]

/-- What is read from behind puts nothing in front. -/
theorem front_readPrefixed (read : Reader ε α σ) (rest : σ) (request : ReadRequest) :
    (readPrefixed read ⟨[], rest⟩ request).2.front = [] := by
  cases request with
  | one => rfl
  | upTo n =>
    rw [readPrefixed]
    split
    · exact List.drop_nil
    · rfl

end Prefixed

/-- A source with elements put back in front of it is a source. -/
def Source.prefixed (source : Source ε α σ) : Source ε α (Prefixed α σ) where
  read := readPrefixed source.read
  pending s := s.front ++ source.pending s.rest
  read_zero s := readPrefixed_within (Nat.zero_le _)
  read_nil := by
    rintro ⟨front, rest⟩ request hsize hpending
    obtain ⟨rfl, hrest⟩ := List.append_eq_nil_iff.mp hpending
    cases request with
    | one => exact source.read_nil rest .one hsize hrest
    | upTo n =>
      obtain ⟨hread, hnext⟩ := source.read_nil rest (.upTo n) hsize hrest
      rw [readPrefixed_ended hsize hread]
      exact ⟨rfl, hnext⟩
  read_cons := by
    rintro ⟨front, rest⟩ request hsize hpending
    dsimp only at hpending ⊢
    cases request with
    | one =>
      cases front with
      | cons a front => exact ⟨1, hsize, Nat.le_refl _, Nat.le_add_left _ _, rfl, rfl⟩
      | nil => exact source.read_cons rest .one hsize hpending
    | upTo n =>
      by_cases hfull : n ≤ front.length
      · rw [readPrefixed_within hfull]
        refine ⟨n, hsize, Nat.le_refl _, ?_, ?_, ?_⟩
        · rw [List.length_append]
          omega
        · rw [List.take_append_of_le_length hfull]
        · rw [List.drop_append_of_le_length hfull]
      have hlt : front.length < n := by omega
      have hrequest : 0 < (ReadRequest.upTo (n - front.length)).size := by
        show 0 < n - front.length
        omega
      by_cases hrest : source.pending rest = []
      · obtain ⟨hread, hnext⟩ := source.read_nil rest _ hrequest hrest
        have hfront : front ≠ [] := by
          rintro rfl
          exact hpending hrest
        rw [readPrefixed_ended hlt hread, if_neg hfront]
        refine ⟨front.length, List.length_pos_iff.mpr hfront, Nat.le_of_lt hlt, ?_, ?_, ?_⟩
        · rw [List.length_append]
          omega
        · rw [List.take_left]
        · rw [List.drop_left, List.nil_append, hnext, hrest]
      · obtain ⟨k, hpos, hle, hlength, hread, hnext⟩ := source.read_cons rest _ hrequest hrest
        change k ≤ n - front.length at hle
        rw [readPrefixed_data hlt hread]
        refine ⟨front.length + k, by omega, ?_, ?_, ?_, ?_⟩
        · show front.length + k ≤ n
          omega
        · rw [List.length_append]
          omega
        · rw [List.take_length_add_append]
        · rw [List.drop_length_add_append, List.nil_append, hnext]

end JFlac.Lib
