import Runbook.Proofs.Url.Clear

set_option autoImplicit false
set_option relaxedAutoImplicit false

/-!
A URL that was read holds no control characters, whatever the text held that it was read from: tabs
and line breaks are dropped, other controls are percent-encoded, and a domain with any is refused.
The same holds of what is read against such a URL and of the changes made to one.
-/

namespace Runbook.Url

theorem clear_slash : Clear ['/'] := by simp [isControl]

theorem clear_noHost : ∀ h ∈ (none : Option Host), Clear h.text.toList := fun _ absent => by
  cases absent

section Paths

variable {kind : SchemeKind} {path input : List Char} {p : OpenPath}

/-- Whether neither what is done of a path nor its open segment holds a control. -/
structure OpenPath.AllClear (p : OpenPath) : Prop where
  done : Clear p.done
  segment : Clear p.segment

theorem clear_popSegment (h : Clear path) : Clear (popSegment kind path) := by
  unfold popSegment splitLastSlash
  dsimp only
  split
  · exact h
  · exact h.subset (List.take_subset _ _)

theorem OpenPath.AllClear.push (h : p.AllClear) (kind : SchemeKind) (c : Char) :
    (p.push kind c).AllClear := by
  have slash : isControl '/' = false := by decide
  have encoded := (clear_percentEncode path_covers c).reverse
  have segment := h.segment.reverse
  unfold OpenPath.push
  dsimp only
  split
  · split
    · exact ⟨clear_append.mpr ⟨h.done, clear_slash⟩, encoded⟩
    · next first rest reversed =>
      rw [reversed] at segment
      obtain ⟨one, others⟩ := clear_cons.mp segment
      exact ⟨clear_append.mpr ⟨h.done, by simpa using one⟩,
        clear_append.mpr ⟨encoded, clear_cons.mpr ⟨slash, others.reverse⟩⟩⟩
  · exact ⟨h.done, clear_append.mpr ⟨encoded, h.segment⟩⟩

theorem OpenPath.AllClear.close (h : p.AllClear) (kind : SchemeKind) (slash : Bool) :
    (p.close kind slash).AllClear := by
  have colon : isControl ':' = false := by decide
  have segment := h.segment.reverse
  have tail : Clear (if slash then ['/'] else []) := by
    split
    · exact clear_slash
    · exact clear_nil
  have trimmed : Clear
      (if p.done.getLast? == some '/' && isRemovable p.done then p.done.dropLast else p.done) := by
    split
    · exact h.done.subset (List.dropLast_subset _)
    · exact h.done
  unfold OpenPath.close
  dsimp only
  split
  · generalize (if p.done.getLast? == some '/' && isRemovable p.done then p.done.dropLast
      else p.done) = done at trimmed ⊢
    have popped : Clear (if done.isEmpty then done else popSegment kind done) := by
      split
      · exact trimmed
      · exact clear_popSegment trimmed
    generalize (if done.isEmpty then done else popSegment kind done) = path at popped ⊢
    refine ⟨?_, clear_nil⟩
    dsimp only
    split
    · exact clear_append.mpr ⟨popped, clear_slash⟩
    · exact popped
  · split
    · refine ⟨?_, clear_nil⟩
      dsimp only
      split
      · exact h.done
      · exact clear_append.mpr ⟨h.done, clear_slash⟩
    · split
      · refine ⟨?_, clear_nil⟩
        have letter : Clear (p.segment.reverse.take 1) := segment.subset (List.take_subset _ _)
        exact clear_append.mpr ⟨clear_append.mpr ⟨h.done, letter⟩, clear_cons.mpr ⟨colon, tail⟩⟩
      · exact ⟨clear_append.mpr ⟨clear_append.mpr ⟨h.done, segment⟩, tail⟩, clear_nil⟩

/-- The induction is on the input, of which each character either goes to the open segment or closes
it. -/
theorem OpenPath.AllClear.walk (h : p.AllClear) (kind : SchemeKind) (stops : Bool)
    (input : List Char) : (OpenPath.walk kind stops p input).1.AllClear := by
  induction input generalizing p with
  | nil => exact h.close kind false
  | cons c cs ih =>
    unfold OpenPath.walk
    split
    · exact ih (h.close kind true)
    · split
      · exact h.close kind false
      · exact ih (h.push kind c)

theorem clear_readPath {start : List Char} (h : Clear start) (kind : SchemeKind) (stops : Bool)
    (input : List Char) : Clear (readPath kind stops start input).text := by
  have slash : isControl '/' = false := by decide
  have walked := OpenPath.AllClear.walk (p := ⟨start, [], true⟩) ⟨h, clear_nil⟩ kind stops input
  unfold readPath
  dsimp only
  split
  · exact clear_cons.mpr ⟨slash, walked.done.subset (List.dropWhile_subset _)⟩
  · exact walked.done

theorem clear_readPathStart (kind : SchemeKind) (hasHost stops : Bool) (input : List Char) :
    Clear (readPathStart kind hasHost stops input).text := by
  unfold readPathStart
  split
  · exact clear_nil
  · split
    · exact clear_nil
    · split
      · exact clear_readPath clear_nil _ _ _
      · exact clear_readPath clear_slash _ _ _
  · split
    · exact clear_readPath clear_nil _ _ _
    · split
      · split
        · exact clear_readPath clear_slash _ _ _
        · exact clear_readPath clear_slash _ _ _
      · exact clear_readPath clear_slash _ _ _

end Paths

section Reading

variable {u : Url} {base? : Option Url} {scheme : String} {authority : Option Authority}
  {cs : List Char}

theorem clear_readTail (kind : SchemeKind) (cs : List Char) :
    (∀ s ∈ (readTail kind cs).1, Clear s.toList) ∧ ∀ s ∈ (readTail kind cs).2, Clear s.toList := by
  have query : ∀ ds, Clear (encodeAll (if kind.isSpecial then inSpecialQuerySet else inQuerySet)
      ds).toList := by
    intro ds
    split
    · exact clear_encodeAll specialQuery_covers ds
    · exact clear_encodeAll query_covers ds
  unfold readTail
  split
  · dsimp only
    split
    · simpa using ⟨query _, clear_encodeAll fragment_covers _⟩
    · simpa using query _
  · simpa using clear_encodeAll fragment_covers _
  · simp

theorem allClear_withPath {p : ReadPath} (named : Clear scheme.toList)
    (known : ∀ a ∈ authority, a.AllClear) (path : Clear p.text) :
    (withPath scheme authority p).AllClear := by
  obtain ⟨query, fragment⟩ := clear_readTail (SchemeKind.of scheme) p.rest
  exact ⟨named, known, by simpa [withPath, Path.text] using path, query, fragment⟩

theorem AllClear.withTail (h : u.AllClear) (cs : List Char) : (u.withTail cs).AllClear := by
  obtain ⟨query, fragment⟩ := clear_readTail (SchemeKind.of u.scheme) cs
  exact ⟨h.scheme, h.authority, h.path, query, fragment⟩

theorem AllClear.withFragment (h : u.AllClear) (cs : List Char) :
    (u.withFragment cs).AllClear := by
  refine ⟨h.scheme, h.authority, h.path, h.query, ?_⟩
  intro s found
  obtain rfl := Option.some.inj found
  exact clear_encodeAll fragment_covers cs

theorem AllClear.withoutFragment (h : u.AllClear) : { u with fragment := none }.AllClear :=
  ⟨h.scheme, h.authority, h.path, h.query, fun _ found => by cases found⟩

theorem AllClear.appendPairs (h : u.AllClear) (pairs : List (String × String)) :
    (u.appendPairs pairs).AllClear := by
  have marks : isControl '+' = false ∧ isControl '%' = false ∧ isControl '=' = false ∧
      isControl '&' = false := by decide
  have signs : isControl '*' = false ∧ isControl '-' = false ∧ isControl '.' = false ∧
      isControl '_' = false := by decide
  have there : Clear (u.query.getD "").toList := by
    cases found : u.query with
    | none => exact clear_nil
    | some s => exact h.query s found
  refine ⟨h.scheme, h.authority, h.path, ?_, h.fragment⟩
  intro s found
  obtain rfl := Option.some.inj found
  rw [String.toList_ofList]
  intro c member
  rcases mem_formAppend member with old | safe | rfl | rfl | rfl | rfl
  · exact there c old
  · rcases isFormSafe_iff.mp safe with alphanumeric | rfl | rfl | rfl | rfl
    · exact isControl_of_isAlphanum alphanumeric
    · exact signs.1
    · exact signs.2.1
    · exact signs.2.2.1
    · exact signs.2.2.2
  · exact marks.1
  · exact marks.2.1
  · exact marks.2.2.1
  · exact marks.2.2.2

theorem AllClear.setPath (h : u.AllClear) (path : String) : (u.setPath path).AllClear := by
  have slash : isControl '%' = false ∧ isControl '2' = false ∧ isControl 'F' = false := by decide
  unfold Url.setPath
  dsimp only
  split
  · refine ⟨h.scheme, h.authority, ?_, h.query, h.fragment⟩
    have encoded : ∀ ds, Clear (encodeAll isControl ds).toList :=
      clear_encodeAll fun _ control => control
    simp only [Path.text]
    split
    · simpa [slash] using encoded _
    · exact encoded _
  · refine ⟨h.scheme, h.authority, ?_, h.query, h.fragment⟩
    simpa [Path.text] using clear_readPathStart _ _ _ _

theorem AllClear.setPort (h : u.AllClear) {port : Nat} {changed : Url}
    (set : u.setPort? port = some changed) : changed.AllClear := by
  unfold Url.setPort? at set
  split at set
  · next a found =>
    split at set
    · cases set
    · obtain rfl := Option.some.inj set
      obtain ⟨username, password, host⟩ := h.authority a found
      refine ⟨h.scheme, ?_, h.path, h.query, h.fragment⟩
      intro b same
      obtain rfl := Option.some.inj same
      exact ⟨username, password, host⟩
  · cases set

theorem clear_readUserinfo (kind : SchemeKind) (cs : List Char) :
    Outcome.Yields (readUserinfo kind cs) fun read =>
      Clear read.1.toList ∧ ∀ s ∈ read.2.1, Clear s.toList := by
  unfold readUserinfo
  dsimp only
  split
  · exact Outcome.yields_pure (by simp)
  · split
    · split
      · split
        · exact Outcome.yields_error
        · exact Outcome.yields_pure (by simp)
      · exact Outcome.yields_pure (by simp)
    · refine Outcome.yields_pure ⟨clear_encodeAll userinfo_covers _, ?_⟩
      intro s found
      split at found
      · cases found
      · obtain rfl := Option.some.inj found
        exact clear_encodeAll userinfo_covers _

theorem allClear_readAuthority (scheme : String) (cs : List Char) :
    Outcome.Yields (readAuthority scheme cs) fun read => read.1.AllClear := by
  unfold readAuthority
  extract_lets kind
  refine Outcome.yields_bind ?_
  rintro ⟨username, password, after⟩ user
  obtain ⟨name, secret⟩ := clear_readUserinfo _ _ _ user
  dsimp -zeta only at name secret ⊢
  extract_lets finish
  have finished : ∀ host : Option Host, (∀ h ∈ host, Clear h.text.toList) →
      Outcome.Yields (finish host) fun read => read.1.AllClear := by
    intro host known
    refine Outcome.yields_guard ?_
    dsimp -zeta only
    extract_lets last
    have ended : ∀ port, Outcome.Yields (last port) fun read => read.1.AllClear :=
      fun _ => Outcome.yields_guard (Outcome.yields_pure ⟨name, secret, known⟩)
    split
    · exact Outcome.yields_bind fun port _ => ended port
    · exact Outcome.yields_bind fun port _ => ended port
  split
  · exact Outcome.yields_bind fun host read => finished host fun h found =>
      clear_generalHost (found ▸ read)
  · split
    · exact Outcome.yields_bind fun _ read => by cases read
    · refine Outcome.yields_bind fun _ read => finished _ fun h found => ?_
      obtain ⟨host, special, rfl⟩ := Outcome.map_eq_ok.mp read
      obtain rfl := Option.some.inj found
      exact clear_specialHost special

theorem allClear_readAfterSlashes (named : Clear scheme.toList) (cs : List Char) :
    Outcome.Yields (readAfterSlashes scheme cs) AllClear := by
  refine Outcome.yields_bind fun read authority => Outcome.yields_pure ?_
  have known := allClear_readAuthority scheme cs read authority
  refine allClear_withPath named ?_ (clear_readPathStart _ _ _ _)
  intro a found
  exact Option.some.inj found ▸ known

theorem allClear_fileAuthority {host : Option Host} (known : ∀ h ∈ host, Clear h.text.toList) :
    ∀ a ∈ fileAuthority host, a.AllClear := by
  intro a found
  obtain rfl := Option.some.inj found
  exact ⟨clear_nil, fun _ absent => (by cases absent), known⟩

/-- A `file` URL of a host that holds no control, and a path read on from one that holds none. -/
theorem allClear_file {host : Option Host} {p : ReadPath} (known : ∀ h ∈ host, Clear h.text.toList)
    (path : Clear p.text) : (withPath "file" (fileAuthority host) p).AllClear :=
  allClear_withPath (by simp [isControl]) (allClear_fileAuthority known) path

theorem allClear_readFileHost (cs : List Char) :
    Outcome.Yields (readFileHost cs) AllClear := by
  unfold readFileHost
  extract_lets hostText finish
  split
  · exact Outcome.yields_pure (allClear_file clear_noHost (clear_readPath clear_slash _ _ _))
  · have finished : ∀ host : Option Host, (∀ h ∈ host, Clear h.text.toList) →
        Outcome.Yields (finish host) AllClear := by
      intro host known
      refine Outcome.yields_pure (allClear_file ?_ (clear_readPathStart _ _ _ _))
      split
      · exact known
      · exact clear_noHost
    split
    · exact Outcome.yields_bind fun host read => finished host fun h found => by
        cases read
        cases found
    · refine Outcome.yields_bind fun _ read => finished _ fun h found => ?_
      obtain ⟨host, special, rfl⟩ := Outcome.map_eq_ok.mp read
      split at found
      · cases found
      · exact Option.some.inj found ▸ clear_specialHost special

theorem clear_host {u : Url} (h : u.AllClear) : ∀ host ∈ u.host?, Clear host.text.toList := by
  intro host found
  obtain ⟨a, present, named⟩ := Option.bind_eq_some_iff.mp found
  exact (h.authority a present).host host named

theorem allClear_rooted (known : ∀ b ∈ base?, b.AllClear) (c : Char) (cs : List Char) :
    (readFile.rooted base? c cs).AllClear := by
  have plain : (withPath "file" (fileAuthority none)
      (readPath .file true [] (c :: cs))).AllClear :=
    allClear_file clear_noHost (clear_readPath clear_nil _ _ _)
  unfold readFile.rooted
  dsimp only
  split
  · exact plain
  · next b =>
    have old := known b rfl
    split
    · exact plain
    · split
      · have first : Clear ((b.pathText.drop 1).takeWhile (· != '/')) :=
          (old.path.subset (List.drop_subset _ _)).subset (List.takeWhile_subset _)
        have start : Clear ('/' :: (b.pathText.drop 1).takeWhile (· != '/')) :=
          clear_append.mpr ⟨clear_slash, first⟩
        exact allClear_file clear_noHost (clear_readPath start _ _ _)
      · exact allClear_file (clear_host old) (clear_readPath clear_nil _ _ _)

theorem allClear_readFile (known : ∀ b ∈ base?, b.AllClear) (cs : List Char) :
    Outcome.Yields (readFile base? cs) AllClear := by
  have alone : ∀ cs, (withPath "file" (fileAuthority none)
      (readPath .file true ['/'] cs)).AllClear :=
    fun cs => allClear_file clear_noHost (clear_readPath clear_slash _ _ _)
  unfold readFile
  split
  · next c rest =>
    split
    · split
      · next d after =>
        split
        · exact allClear_readFileHost after
        · exact Outcome.yields_pure (allClear_rooted known _ _)
      · exact Outcome.yields_pure (allClear_rooted known _ _)
    · split
      · exact Outcome.yields_pure (alone _)
      · next b =>
        have old := known b rfl
        split
        · exact Outcome.yields_pure (old.withTail _)
        · split
          · exact Outcome.yields_pure (old.withFragment _)
          · split
            · exact Outcome.yields_pure (alone _)
            · have start : Clear (popSegment .file b.pathText) := clear_popSegment old.path
              exact Outcome.yields_pure
                (allClear_withPath (by simp [isControl]) old.authority (clear_readPath start _ _ _))
  · split
    · exact Outcome.yields_pure (alone _)
    · next b => exact Outcome.yields_pure (known b rfl).withoutFragment

theorem allClear_readRelative {b : Url} (known : b.AllClear) (cs : List Char) :
    Outcome.Yields (readRelative b cs) AllClear := by
  have onPath : ∀ start, Clear start → ∀ cs, (withPath b.scheme b.authority
      (readPath (SchemeKind.of b.scheme) true start cs)).AllClear :=
    fun _ start cs => allClear_withPath known.scheme known.authority (clear_readPath start _ _ _)
  unfold readRelative
  dsimp only
  split
  · exact Outcome.yields_pure known.withoutFragment
  · next c rest =>
    split
    · exact Outcome.yields_pure (known.withTail _)
    · split
      · exact Outcome.yields_pure (known.withFragment _)
      · split
        · split
          · split
            · exact allClear_readAfterSlashes known.scheme _
            · split
              · exact allClear_readAfterSlashes known.scheme _
              · exact Outcome.yields_pure (onPath _ clear_slash _)
          · exact Outcome.yields_pure (onPath _ clear_slash _)
        · refine Outcome.yields_pure (onPath _ ?_ _)
          split
          · exact clear_slash
          · exact clear_popSegment known.path

theorem allClear_readGeneral (named : Clear scheme.toList) (cs : List Char) :
    Outcome.Yields (readGeneral scheme cs) AllClear := by
  have none : ∀ a ∈ (none : Option Authority), a.AllClear := fun _ absent => by cases absent
  unfold readGeneral
  split
  · exact allClear_readAfterSlashes named _
  · exact Outcome.yields_pure (allClear_withPath named none (clear_readPath clear_slash _ _ _))
  · obtain ⟨query, fragment⟩ := clear_readTail .general (cs.dropWhile fun c => c != '?' && c != '#')
    exact Outcome.yields_pure
      ⟨named, none, clear_encodeAll (fun _ control => control) _, query, fragment⟩

theorem clear_scheme {rest : List Char} (cut : scheme? cs = some (scheme, rest)) :
    Clear scheme.toList := by
  have sign : ∀ c, isSchemeChar c = true → isControl c = false := by
    intro c h
    simp only [isSchemeChar, Bool.or_eq_true, beq_iff_eq] at h
    rcases h with ((alphanumeric | rfl) | rfl) | rfl
    · exact isControl_of_isAlphanum alphanumeric
    all_goals decide
  unfold scheme? at cut
  split at cut
  · split at cut
    · obtain ⟨rfl, -⟩ := Prod.mk.inj (Option.some.inj cut)
      rw [String.toList_ofList]
      intro c member
      obtain ⟨d, taken, rfl⟩ := List.mem_map.mp member
      exact isControl_toLower (sign d (List.all_eq_true.mp List.all_takeWhile d taken))
    · cases cut
  · cases cut

/-- The URL that a text is read as holds no control, if the base holds none. -/
theorem allClear_readAgainst (known : ∀ b ∈ base?, b.AllClear) (input : String) :
    Outcome.Yields (readAgainst base? input) AllClear := by
  unfold readAgainst
  dsimp only
  split
  · next scheme rest cut =>
    have named := clear_scheme cut
    split
    · exact allClear_readFile (fun b kept => known b (Option.filter_eq_some_iff.mp kept).1) rest
    · exact allClear_readGeneral named rest
    · split
      · split
        · exact allClear_readRelative (known _ rfl) rest
        · exact allClear_readAfterSlashes named _
      · exact allClear_readAfterSlashes named _
  · split
    · exact Outcome.yields_error
    · next b =>
      have old := known b rfl
      split
      · exact Outcome.yields_pure (old.withFragment _)
      · split
        · exact Outcome.yields_error
        · split
          · exact allClear_readFile known _
          · exact allClear_readRelative old _

theorem allClear_read (input : String) : Outcome.Yields (read input) AllClear :=
  allClear_readAgainst (fun _ absent => (by cases absent)) input

theorem AllClear.join (h : u.AllClear) (reference : String) :
    Outcome.Yields (u.join reference) AllClear :=
  allClear_readAgainst (fun _ found => Option.some.inj found ▸ h) reference

end Reading

end Runbook.Url
