import DiceLab.Formula.Chunk

/-! The chunks of a text are its only division before every sign. -/

namespace DiceLab.Chunk

/-- A text does not go on inside a chunk: it is empty or starts with a sign. -/
def Opens (text : Text) : Prop :=
  -- The empty text counts as well, because nothing of it joins what stands in front.
  ∀ point, text.head? = some point → isSign point = true

/-- A text is one chunk: it is not empty, and no sign stands behind its first code point. -/
def IsChunk (text : Text) : Prop := text ≠ [] ∧ ∀ point ∈ text.tail, isSign point = false

/-- Chunks divide a text before every sign, and nowhere else. -/
structure IsCut (text : Text) (chunks : List Text) : Prop where
  joined : chunks.flatten = text
  whole : ∀ chunk ∈ chunks, IsChunk chunk
  opened : ∀ chunk ∈ chunks.tail, Opens chunk

/-- The first chunk starts as the text does. -/
theorem cut_head {text chunk : Text} {rest : List Text} (cutText : cut text = chunk :: rest) :
    chunk.head? = text.head? := by
  cases text with
  | nil => simp [cut] at cutText
  | cons point text =>
    -- Whether the code point stays alone or joins a chunk, it comes first.
    simp only [cut, List.foldr_cons, attach] at cutText
    split at cutText
    · cases cutText
      rfl
    · split at cutText
      · cases cutText
        rfl
      · cases cutText
        rfl

/-- Only the empty text has no chunks. -/
theorem cut_eq_nil {text : Text} : cut text = [] ↔ text = [] := by
  cases text with
  | nil => simp [cut]
  | cons point text =>
    -- A code point always ends up in some chunk.
    simp only [cut, List.foldr_cons, attach, reduceCtorEq, iff_false]
    split
    · simp
    · split
      · simp
      · simp

/-- A code point stays alone in front of a text that opens a chunk of its own. -/
theorem attach_of_opens (point : CodePoint) {text : Text} (opens : Opens text) :
    attach point (cut text) = [point] :: cut text := by
  cases cutText : cut text with
  | nil => rfl
  | cons chunk rest =>
    -- The chunk behind starts as the text does, which is with a sign.
    have head := cut_head cutText
    cases text with
    | nil => simp [cut] at cutText
    | cons first text =>
      have sign := opens first rfl
      simp only [List.head?_cons] at head
      simp [attach, head, sign]

/-- Two texts are cut one by one when the second opens a chunk. -/
theorem cut_append (first : Text) {second : Text} (opens : Opens second) :
    cut (first ++ second) = cut first ++ cut second := by
  induction first with
  | nil => simp [cut]
  | cons point first ih =>
    change attach point (cut (first ++ second)) = attach point (cut first) ++ cut second
    rw [ih]
    cases cutFirst : cut first with
    | nil =>
      -- The code point is the last of the first text, so the second one starts behind it.
      simpa [attach] using attach_of_opens point opens
    | cons chunk rest =>
      -- The code point joins the first chunk or not, whatever the second text adds at the end.
      simp only [List.cons_append, attach]
      split
      · rfl
      · rfl

/-- A chunk is cut no further. -/
theorem cut_chunk {chunk : Text} (whole : IsChunk chunk) : cut chunk = [chunk] := by
  obtain ⟨nonempty, inner⟩ := whole
  cases chunk with
  | nil => exact absurd rfl nonempty
  | cons point rest =>
    clear nonempty
    -- Behind the first code point no sign follows, so every code point joins the next.
    induction rest generalizing point with
    | nil => rfl
    | cons next rest ih =>
      have joins : isSign next = false := inner next (by simp)
      have behind := ih next fun other member => inner other (by simp_all)
      change attach point (cut (next :: rest)) = _
      rw [behind]
      simp [attach, joins]

/-- The chunks of a text are the only ones that divide it before every sign. -/
theorem IsCut.eq_cut {text : Text} {chunks : List Text} (division : IsCut text chunks) :
    chunks = cut text := by
  obtain ⟨rfl, whole, opened⟩ := division
  -- The first chunk is cut off the others, because these open a chunk of their own.
  induction chunks with
  | nil => rfl
  | cons chunk rest ih =>
    simp only [List.tail_cons] at opened
    have opens : Opens rest.flatten := by
      cases rest with
      | nil => simp [Opens]
      | cons next others =>
        -- The text behind starts as its first chunk does, which is not empty.
        have start := opened next (by simp)
        obtain ⟨nonempty, -⟩ := whole next (by simp)
        obtain ⟨point, behind, rfl⟩ := List.exists_cons_of_ne_nil nonempty
        simpa [Opens] using start
    rw [List.flatten_cons, cut_append chunk opens, cut_chunk (whole chunk (by simp)),
      ← ih (fun other member => whole other (by simp [member]))
        (fun other member => opened other (List.mem_of_mem_tail member))]
    rfl

/-- Cutting divides a text before every sign, and nowhere else. -/
theorem isCut_cut (text : Text) : IsCut text (cut text) := by
  -- Cutting goes from the end, so what is known of the rest is kept while one code point is added.
  induction text with
  | nil => exact ⟨rfl, by simp [cut], by simp [cut]⟩
  | cons point text ih =>
    obtain ⟨joined, whole, opened⟩ := ih
    change IsCut (point :: text) (attach point (cut text))
    cases cutText : cut text with
    | nil =>
      -- Nothing stands behind the last code point, which is a chunk alone.
      rw [cut_eq_nil] at cutText
      subst cutText
      exact ⟨rfl, by simp [attach, IsChunk], by simp [attach]⟩
    | cons chunk rest =>
      rw [cutText] at joined whole opened
      simp only [List.mem_cons, forall_eq_or_imp, List.tail_cons] at whole opened
      obtain ⟨⟨nonempty, inner⟩, others⟩ := whole
      obtain ⟨next, behind, rfl⟩ := List.exists_cons_of_ne_nil nonempty
      cases sign : isSign next with
      | true =>
        -- A sign opens the chunk behind, and the code point is a chunk of its own.
        refine ⟨by simp [attach, sign, ← joined], ?_, ?_⟩
        · simp only [attach, List.head?_cons, Option.map_some, sign, Option.getD_some, if_true,
            List.mem_cons, forall_eq_or_imp]
          exact ⟨by simp [IsChunk], ⟨nonempty, inner⟩, others⟩
        · simp only [attach, List.head?_cons, Option.map_some, sign, Option.getD_some, if_true,
            List.tail_cons, List.mem_cons, forall_eq_or_imp]
          exact ⟨by simpa [Opens] using sign, opened⟩
      | false =>
        -- Anything else goes on with the code point in front of it.
        refine ⟨by simp [attach, sign, ← joined], ?_, ?_⟩
        · simp only [attach, List.head?_cons, Option.map_some, sign, Option.getD_some,
            Bool.false_eq_true, if_false, List.mem_cons, forall_eq_or_imp]
          refine ⟨⟨by simp, ?_⟩, others⟩
          simp only [List.tail_cons, List.mem_cons, forall_eq_or_imp] at inner ⊢
          exact ⟨sign, inner⟩
        · simpa [attach, sign] using opened

end DiceLab.Chunk
