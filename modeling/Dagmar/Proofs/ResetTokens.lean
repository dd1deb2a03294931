import Dagmar.Library.History
import Dagmar.ResetDelivery

/-! Reset tokens under concurrent requests. A request that issues or redeems a token
holds the user throughout, so its revoking statement covers every live token until it
commits. The other requests revoke before they hold anything; that they commit before
a further token has come up is a condition here. -/

namespace Dagmar.Credentials.Proofs
open Library

section Safety

/-- What ends the tokens issued before it. -/
def ResetEntry.ends : ResetEntry → Prop
  | .accepted _ _ => False
  | _ => True

/-- What a token may be accepted on, after what has been committed before. -/
structure Justified (older : List ResetEntry) (row : PortalUserResetToken) (now : Int) : Prop where
  usable : usable row now
  once : ∀ earlier time, .accepted earlier time ∈ older → earlier.token ≠ row.token
  inserted : .inserted row.id ∈ older
  unended : ∀ entry, ResetEntry.ends entry → ¬ Since older (.inserted row.id) entry

/-- Every acceptance was justified when it was committed. -/
def Justifies : List ResetEntry → Prop
  | [] => True
  | entry :: older => (∀ row now, entry = .accepted row now → Justified older row now) ∧ Justifies older

structure TokensSafe (account : Account) : Prop where
  justifies : Justifies account.history
  single : ∀ first ∈ account.resetTokens, ∀ second ∈ account.resetTokens, ∀ now, usable first now → usable second now →
    first = second

/-- A request that blocks, deactivates or sets a password commits while every live token
is one it has revoked: none has been inserted since its statement ran. -/
def InTime : Rule Account Progress := fun world who state _ =>
  ∀ request foundActive foundBlocked revoked,
    world.sessions who = .ready (.change request foundActive foundBlocked) 0 revoked → request.entries ≠ [] →
    state ≠ world.state → ∀ row ∈ world.state.resetTokens, row.live → row.id ∈ revoked

def ResetsInTime : Rule Account Progress := fun world who state session =>
  Resets world who state session ∧ InTime world who state session

end Safety

section Rows
variable {tokens : Table PortalUserResetToken PortalUserResetToken.id} {history : List ResetEntry}

/-- A rewriting of rows that brings no token back. -/
structure Retires (f : PortalUserResetToken → PortalUserResetToken) : Prop where
  id : ∀ row, (f row).id = row.id
  token : ∀ row, (f row).token = row.token
  live : ∀ row, (f row).live → row.live

theorem retires_revokedIn (ids : List Int) (now : Int) : Retires (·.revokedIn ids now) := by
  refine ⟨revokedIn_id ids now, ?_, ?_⟩ <;> intro row <;> simp only [PortalUserResetToken.revokedIn] <;> split
  · rfl
  · rfl
  · exact fun live => absurd live.2 (by simp)
  · exact id

theorem retires_markDelivery (id : Int) (state : ResetDeliveryState) (revoked : Option Int) :
    Retires (·.markDelivery id state revoked) := by
  refine ⟨markDelivery_id id state revoked, ?_, ?_⟩ <;> intro row <;>
    simp only [PortalUserResetToken.markDelivery] <;> split
  · rfl
  · rfl
  · exact fun live => ⟨live.1, (Option.or_eq_none_iff.mp live.2).2⟩
  · exact fun live => live

theorem retires_markUsed (id now : Int) : Retires (·.markUsed id now) := by
  refine ⟨markUsed_id id now, ?_, ?_⟩ <;> intro row <;> simp only [PortalUserResetToken.markUsed] <;> split
  · rfl
  · rfl
  · exact fun live => absurd live.1 (by simp)
  · exact fun live => live

theorem Retires.comp {f g : PortalUserResetToken → PortalUserResetToken} (second : Retires g) (first : Retires f) :
    Retires (fun row => g (f row)) where
  id row := (second.id _).trans (first.id row)
  token row := (second.token _).trans (first.token row)
  live row live := first.live row (second.live _ live)

theorem not_live_revokedIn {ids : List Int} {row : PortalUserResetToken} (member : row.id ∈ ids) (now : Int) :
    ¬ (row.revokedIn ids now).live := by
  rw [PortalUserResetToken.revokedIn, if_pos member]
  exact fun live => absurd live.2 (by simp)

theorem revokedIn_of_not_mem {ids : List Int} {row : PortalUserResetToken} (outside : row.id ∉ ids) (now : Int) :
    row.revokedIn ids now = row := if_neg outside

theorem live_of_usable {row : PortalUserResetToken} {now : Int} (usable : usable row now) : row.live :=
  ⟨usable.1, usable.2.1⟩

/-- The ids are those of every live token. -/
def Covers (tokens : Table PortalUserResetToken PortalUserResetToken.id) (ids : List Int) : Prop :=
  ∀ row ∈ tokens, row.live → row.id ∈ ids

theorem Covers.mapRows {f : PortalUserResetToken → PortalUserResetToken} {ids : List Int} (covers : Covers tokens ids)
    (retires : Retires f) : Covers (tokens.mapRows f retires.id) ids := by
  intro row member live
  obtain ⟨old, inside, rfl⟩ := Table.mem_mapRows.mp member
  rw [retires.id]
  exact covers old inside (retires.live old live)

theorem Covers.revoked {ids : List Int} (covers : Covers tokens ids) (now : Int) {row : PortalUserResetToken}
    (member : row ∈ tokens) : ¬ (row.revokedIn ids now).live := by
  intro live
  have before := (retires_revokedIn ids now).live row live
  exact not_live_revokedIn (covers row member before) now live

theorem covers_liveIds (account : Account) (revoked : List Int) :
    Covers account.resetTokens (account.liveIds revoked ++ revoked) := by
  intro row member live
  by_cases already : row.id ∈ revoked
  · exact List.mem_append_right _ already
  · have selected : row ∈ account.resetTokens.select fun row => row.live ∧ row.id ∉ revoked :=
      Table.mem_select.mpr ⟨member, live, already⟩
    exact List.mem_append_left _ (List.mem_map_of_mem selected)

/-- What holds of the tokens and the history between commits. -/
structure Consistent (tokens : Table PortalUserResetToken PortalUserResetToken.id) (history : List ResetEntry) : Prop where
  single : ∀ first ∈ tokens, ∀ second ∈ tokens, first.live → second.live → first = second
  distinct : ∀ first ∈ tokens, ∀ second ∈ tokens, first.token = second.token → first = second
  inserted : ∀ id, .inserted id ∈ history ↔ ∃ row ∈ tokens, row.id = id
  unended : ∀ row ∈ tokens, row.live → ∀ entry, ResetEntry.ends entry → ¬ Since history (.inserted row.id) entry
  spent : ∀ row now, .accepted row now ∈ history → ∃ current ∈ tokens, current.token = row.token ∧ ¬ current.live
  justifies : Justifies history

theorem Justifies.append {entries : List ResetEntry} (justifies : Justifies history)
    (others : ∀ row now, .accepted row now ∉ entries) : Justifies (entries ++ history) := by
  induction entries with
  | nil => exact justifies
  | cons entry entries ih =>
    refine ⟨?_, ih fun row now member => others row now (List.mem_cons_of_mem _ member)⟩
    rintro row now rfl
    exact absurd List.mem_cons_self (others row now)

/-- A token that is live is one that may be accepted. -/
theorem Consistent.justified (consistent : Consistent tokens history) {row : PortalUserResetToken} {now : Int} (member : row ∈ tokens)
    (usable : usable row now) : Justified history row now where
  usable := usable
  once := by
    intro earlier time accepted same
    obtain ⟨current, inside, token, spent⟩ := consistent.spent earlier time accepted
    have equal := consistent.distinct current inside row member (token.trans same)
    exact spent (equal ▸ live_of_usable usable)
  inserted := (consistent.inserted row.id).mpr ⟨row, member, rfl⟩
  unended := consistent.unended row member (live_of_usable usable)

/-- Rows are retired, and what ends tokens is entered only when none is left. -/
theorem Consistent.mapRows (consistent : Consistent tokens history) {f : PortalUserResetToken → PortalUserResetToken}
    (retires : Retires f) (entries : List ResetEntry)
    (ended : (∃ entry ∈ entries, ResetEntry.ends entry) → ∀ row ∈ tokens, ¬ (f row).live)
    (insertsNone : ∀ id, .inserted id ∉ entries)
    (spent : ∀ row now, .accepted row now ∈ entries → ∃ current ∈ tokens, current.token = row.token ∧ ¬ (f current).live)
    (justifies : Justifies (entries ++ history)) :
    Consistent (tokens.mapRows f retires.id) (entries ++ history) where
  single := by
    intro first left second right liveFirst liveSecond
    obtain ⟨one, inside, rfl⟩ := Table.mem_mapRows.mp left
    obtain ⟨two, within, rfl⟩ := Table.mem_mapRows.mp right
    rw [consistent.single one inside two within (retires.live one liveFirst) (retires.live two liveSecond)]
  distinct := by
    intro first left second right same
    obtain ⟨one, inside, rfl⟩ := Table.mem_mapRows.mp left
    obtain ⟨two, within, rfl⟩ := Table.mem_mapRows.mp right
    rw [retires.token, retires.token] at same
    rw [consistent.distinct one inside two within same]
  inserted := by
    intro id
    rw [List.mem_append, or_iff_right (insertsNone id), consistent.inserted]
    constructor
    · rintro ⟨row, member, same⟩
      exact ⟨f row, Table.mem_mapRows.mpr ⟨row, member, rfl⟩, (retires.id row).trans same⟩
    · rintro ⟨row, member, same⟩
      obtain ⟨old, inside, rfl⟩ := Table.mem_mapRows.mp member
      exact ⟨old, inside, (retires.id old).symm.trans same⟩
  unended := by
    intro row member live entry ends since
    obtain ⟨old, inside, rfl⟩ := Table.mem_mapRows.mp member
    rw [retires.id] at since
    rcases since.of_append with fresh | before
    · exact ended ⟨entry, fresh, ends⟩ old inside live
    · exact consistent.unended old inside (retires.live old live) entry ends before
  spent := by
    intro row now accepted
    rcases List.mem_append.mp accepted with fresh | before
    · obtain ⟨current, inside, same, dead⟩ := spent row now fresh
      exact ⟨f current, Table.mem_mapRows.mpr ⟨current, inside, rfl⟩, (retires.token current).trans same, dead⟩
    · obtain ⟨current, inside, same, dead⟩ := consistent.spent row now before
      refine ⟨f current, Table.mem_mapRows.mpr ⟨current, inside, rfl⟩, (retires.token current).trans same, ?_⟩
      exact fun live => dead (retires.live current live)
  justifies := justifies

/-- A token is inserted when no other is live. -/
theorem Consistent.insert (consistent : Consistent tokens history) (ended : ∀ row ∈ tokens, ¬ row.live) {row : PortalUserResetToken}
    (numbered : tokens.get row.id = none) (random : ∀ other ∈ tokens, other.token ≠ row.token) :
    Consistent (tokens.put row) (.inserted row.id :: history) := by
  have unused : ∀ other ∈ tokens, other.id ≠ row.id := Table.get_eq_none_iff.mp numbered
  have old : ∀ other, other ∈ tokens.put row ↔ other = row ∨ other ∈ tokens := by
    intro other
    rw [Table.mem_put]
    exact or_congr_right (and_iff_left_of_imp (unused other))
  have unknown : .inserted row.id ∉ history := by
    intro member
    obtain ⟨other, inside, same⟩ := (consistent.inserted row.id).mp member
    exact unused other inside same
  refine ⟨?_, ?_, ?_, ?_, ?_, ?_, consistent.justifies⟩
  · intro first left second right liveFirst liveSecond
    rcases (old first).mp left with rfl | inside
    · rcases (old second).mp right with rfl | within
      · rfl
      · exact absurd liveSecond (ended second within)
    · exact absurd liveFirst (ended first inside)
  · intro first left second right same
    rcases (old first).mp left with rfl | inside <;> rcases (old second).mp right with rfl | within
    · rfl
    · exact absurd same.symm (random second within)
    · exact absurd same (random first inside)
    · exact consistent.distinct first inside second within same
  · intro id
    rw [List.mem_cons, consistent.inserted]
    constructor
    · rintro (same | ⟨other, inside, same⟩)
      · exact ⟨row, (old row).mpr (.inl rfl), (ResetEntry.inserted.inj same).symm⟩
      · exact ⟨other, (old other).mpr (.inr inside), same⟩
    · rintro ⟨other, member, rfl⟩
      rcases (old other).mp member with rfl | inside
      · exact .inl rfl
      · exact .inr ⟨other, inside, rfl⟩
  · intro other member live entry ends since
    rcases (old other).mp member with rfl | inside
    · rcases since with ⟨-, before⟩ | before
      · exact unknown before
      · exact unknown before.mem
    · exact ended other inside live
  · intro earlier now accepted
    have before := (List.mem_cons.mp accepted).resolve_left (by simp)
    obtain ⟨current, inside, same, dead⟩ := consistent.spent earlier now before
    exact ⟨current, (old current).mpr (.inr inside), same, dead⟩
  · rintro earlier now entry
    cases entry

end Rows

section Sessions
variable {tokens : Table PortalUserResetToken PortalUserResetToken.id} {world : World Account Progress} {who : Nat}

/-- What a session may rely on after its reads. -/
def Prepared (tokens : Table PortalUserResetToken PortalUserResetToken.id) : Progress → Prop
  | .ready purpose left revoked =>
    (purpose.holdsUser = true → left = 0 → Covers tokens revoked) ∧
      ∀ id now, purpose = .reset id now → ∃ row, tokens.get id = some row ∧ usable row now
  | .revoking purpose _ rows revoked =>
    (purpose.holdsUser = true → Covers tokens (rows ++ revoked)) ∧
      ∀ id now, purpose = .reset id now → ∃ row, tokens.get id = some row ∧ usable row now
  | _ => True

theorem get_mapRows_of_fixed {f : PortalUserResetToken → PortalUserResetToken} (retires : Retires f)
    {row : PortalUserResetToken} {id : Int} (got : tokens.get id = some row) (fixed : f row = row) :
    (tokens.mapRows f retires.id).get id = some row := by
  obtain ⟨member, same⟩ := Table.get_eq_some_iff.mp got
  exact Table.get_eq_some_iff.mpr ⟨Table.mem_mapRows.mpr ⟨row, member, fixed⟩, same⟩

/-- The row that a session means to redeem is one it holds, so nobody else rewrites it. -/
theorem Prepared.mapRows {progress : Progress} (prepared : Prepared tokens progress)
    {f : PortalUserResetToken → PortalUserResetToken} (retires : Retires f)
    (fixed : ∀ row ∈ tokens, HoldsToken progress row.id → f row = row) :
    Prepared (tokens.mapRows f retires.id) progress := by
  have redeems : ∀ id now, HoldsToken progress id → (∃ row, tokens.get id = some row ∧ usable row now) →
      ∃ row, (tokens.mapRows f retires.id).get id = some row ∧ usable row now := by
    rintro id now holds ⟨row, got, usable⟩
    obtain ⟨member, rfl⟩ := Table.get_eq_some_iff.mp got
    exact ⟨row, get_mapRows_of_fixed retires got (fixed row member holds), usable⟩
  cases progress with
  | ready purpose left revoked =>
    refine ⟨fun holds none => (prepared.1 holds none).mapRows retires, ?_⟩
    rintro id now rfl
    exact redeems id now (.inr rfl) (prepared.2 id now rfl)
  | revoking purpose left rows revoked =>
    refine ⟨fun holds => (prepared.1 holds).mapRows retires, ?_⟩
    rintro id now rfl
    exact redeems id now (.inr rfl) (prepared.2 id now rfl)
  | _ => trivial

theorem Prepared.insert {progress : Progress} (prepared : Prepared tokens progress) (unheld : ¬ HoldsUser progress ())
    (row : PortalUserResetToken) : Prepared (tokens.put row) progress := by
  cases progress with
  | ready purpose left revoked =>
    refine ⟨fun holds => absurd holds unheld, ?_⟩
    rintro id now rfl
    exact absurd rfl unheld
  | revoking purpose left rows revoked =>
    refine ⟨fun holds => absurd holds unheld, ?_⟩
    rintro id now rfl
    exact absurd rfl unheld
  | _ => trivial

structure Tidy (world : World Account Progress) : Prop where
  users : Exclusive HoldsUser (fun _ _ => False) world
  tokens : Exclusive HoldsToken (fun _ _ => False) world
  prepared : ∀ who, Prepared world.state.resetTokens (world.sessions who)
  consistent : Consistent world.state.resetTokens world.state.history

/-- A lock that the session adds was free. -/
def Waits {κ : Type} (holds : Progress → κ → Prop) (world : World Account Progress) (who : Nat) (session : Progress) : Prop :=
  ∀ key, holds session key → holds (world.sessions who) key ∨ Available holds world who key

theorem exclusive_of_waits {κ : Type} {holds : Progress → κ → Prop}
    (exclusive : Exclusive holds (fun _ _ => False) world) {session : Progress} (waits : Waits holds world who session)
    (state : Account) : Exclusive holds (fun _ _ => False) (world.move who state session) := by
  refine exclusive.move ?_ ?_
  · intro key taken
    exact (waits key taken).imp_right fun free => ⟨free, fun other different held => held⟩
  · intro key taken
    exact taken.elim

theorem waits_idle {κ : Type} {holds : Progress → κ → Prop} (lets : ∀ key, ¬ holds .idle key) :
    Waits holds world who .idle := fun key taken => absurd taken (lets key)

theorem Tidy.unheld (tidy : Tidy world) {other : Nat} (different : other ≠ who) {id : Int}
    (mine : HoldsToken (world.sessions who) id ∨ Available HoldsToken world who id) :
    ¬ HoldsToken (world.sessions other) id := by
  rcases mine with held | free
  · exact (tidy.tokens who other different.symm id held).1
  · exact free other different

/-- A step that commits nothing. -/
theorem Tidy.stay (tidy : Tidy world) {session : Progress} (user : Waits HoldsUser world who session)
    (token : Waits HoldsToken world who session) (prepared : Prepared world.state.resetTokens session) :
    Tidy (world.move who world.state session) where
  users := exclusive_of_waits tidy.users user _
  tokens := exclusive_of_waits tidy.tokens token _
  prepared := World.forall_move (Prepared world.state.resetTokens) prepared fun other _ => tidy.prepared other
  consistent := tidy.consistent

/-- A commit that rewrites rows the session holds or finds free. -/
theorem Tidy.commit (tidy : Tidy world) {state : Account} {f : PortalUserResetToken → PortalUserResetToken}
    (retires : Retires f) (rewritten : state.resetTokens = world.state.resetTokens.mapRows f retires.id)
    (mine : ∀ row ∈ world.state.resetTokens, f row ≠ row →
      HoldsToken (world.sessions who) row.id ∨ Available HoldsToken world who row.id)
    (consistent : Consistent state.resetTokens state.history) : Tidy (world.move who state .idle) where
  users := exclusive_of_waits tidy.users (waits_idle fun _ held => held) _
  tokens := exclusive_of_waits tidy.tokens (waits_idle fun _ held => held) _
  prepared := by
    refine World.forall_move (Prepared state.resetTokens) trivial ?_
    intro other different
    rw [rewritten]
    refine (tidy.prepared other).mapRows retires ?_
    intro row member holds
    by_contra changed
    exact tidy.unheld different (mine row member changed) holds
  consistent := consistent

end Sessions

section Steps
variable {world : World Account Progress} {who : Nat}

theorem Consistent.revoked {tokens : Table PortalUserResetToken PortalUserResetToken.id} {history : List ResetEntry}
    (consistent : Consistent tokens history) {ids : List Int} (now : Int) (request : AccountRequest)
    (covers : request.entries ≠ [] → Covers tokens ids) :
    Consistent (tokens.mapRows (·.revokedIn ids now) (revokedIn_id ids now)) (request.entries ++ history) := by
  have kinds : ∀ entry ∈ request.entries, entry = .blocked ∨ entry = .deactivated ∨ entry = .passwordChanged := by
    intro entry member
    cases request <;> simp only [AccountRequest.entries] at member <;> grind
  have accepts : ∀ row at', .accepted row at' ∉ request.entries := by
    intro row at' member
    simpa using kinds _ member
  refine consistent.mapRows (retires_revokedIn ids now) request.entries ?_ ?_ ?_ (consistent.justifies.append accepts)
  · rintro ⟨entry, member, -⟩ row inside
    exact (covers (List.ne_nil_of_mem member)).revoked now inside
  · intro id member
    simpa using kinds _ member
  · intro row at' member
    exact absurd member (accepts row at')

theorem Consistent.rewritten {tokens : Table PortalUserResetToken PortalUserResetToken.id} {history : List ResetEntry}
    (consistent : Consistent tokens history) {f : PortalUserResetToken → PortalUserResetToken} (retires : Retires f) :
    Consistent (tokens.mapRows f retires.id) history :=
  consistent.mapRows retires [] (by simp) (by simp) (by simp) consistent.justifies

theorem Tidy.mark (tidy : Tidy world) {id : Int} (free : Available HoldsToken world who id) (state : ResetDeliveryState)
    (revoked : Option Int) : Tidy (world.move who (world.state.mark id state revoked) .idle) := by
  refine tidy.commit (retires_markDelivery id state revoked) rfl ?_ (tidy.consistent.rewritten (retires_markDelivery id state revoked))
  intro row _ changed
  have same : row.id = id := by
    by_contra different
    exact changed (if_neg different)
  exact .inr (same ▸ free)

theorem Tidy.change (tidy : Tidy world) {request : AccountRequest} {foundActive foundBlocked : Bool} {revoked : List Int}
    (ready : world.sessions who = .ready (.change request foundActive foundBlocked) 0 revoked) (now : Int)
    (covers : request.entries ≠ [] → Covers world.state.resetTokens revoked) :
    Tidy (world.move who ((world.state.revoke revoked now request.entries).change request foundActive foundBlocked) .idle) := by
  refine tidy.commit (retires_revokedIn revoked now) rfl ?_ (tidy.consistent.revoked now request covers)
  intro row _ changed
  have held : row.id ∈ revoked := by
    by_contra outside
    exact changed (revokedIn_of_not_mem outside now)
  rw [ready]
  exact .inl (.inl held)

/-- The user has been held since the statement ran, so no token has come up. -/
theorem Tidy.issue (tidy : Tidy world) {token : String} {expiresAt : Int} {revoked : List Int}
    (ready : world.sessions who = .ready (.issue token expiresAt) 0 revoked) (now : Int) {row : PortalUserResetToken}
    (numbered : world.state.resetTokens.get row.id = none)
    (random : ∀ other ∈ world.state.resetTokens, other.token ≠ row.token) :
    Tidy (world.move who ((world.state.revoke revoked now []).insert row) (.mailing row.id)) := by
  have prepared := tidy.prepared who
  rw [ready] at prepared
  have covers : Covers world.state.resetTokens revoked := prepared.1 rfl rfl
  have retires := retires_revokedIn revoked now
  have mine : HoldsUser (world.sessions who) () := by
    rw [ready]
    exact rfl
  have held : ∀ row ∈ world.state.resetTokens, row.revokedIn revoked now ≠ row → HoldsToken (world.sessions who) row.id := by
    intro row _ changed
    rw [ready]
    refine .inl ?_
    by_contra outside
    exact changed (revokedIn_of_not_mem outside now)
  refine ⟨exclusive_of_waits tidy.users ?_ _, exclusive_of_waits tidy.tokens ?_ _, ?_, ?_⟩
  · exact fun key taken => taken.elim
  · exact fun key taken => taken.elim
  · refine World.forall_move (Prepared _) trivial ?_
    intro other different
    have fixed := (tidy.prepared other).mapRows retires (by
      intro row member holds
      by_contra changed
      exact tidy.unheld different (.inl (held row member changed)) holds)
    exact fixed.insert (tidy.users who other different.symm () mine).1 row
  · refine (tidy.consistent.rewritten retires).insert ?_ ?_ ?_
    · intro other member
      obtain ⟨old, inside, rfl⟩ := Table.mem_mapRows.mp member
      exact covers.revoked now inside
    · rw [Table.get_eq_none_iff] at numbered ⊢
      intro other member
      obtain ⟨old, inside, rfl⟩ := Table.mem_mapRows.mp member
      rw [retires.id]
      exact numbered old inside
    · intro other member
      obtain ⟨old, inside, rfl⟩ := Table.mem_mapRows.mp member
      rw [retires.token]
      exact random old inside

theorem Tidy.reset (tidy : Tidy world) {id now : Int} {revoked : List Int}
    (ready : world.sessions who = .ready (.reset id now) 0 revoked) (at' : Int) {row : PortalUserResetToken}
    (got : world.state.resetTokens.get id = some row) :
    Tidy (world.move who ((world.state.revoke revoked at' []).use id now [.passwordChanged, .accepted row now]) .idle) := by
  have prepared := tidy.prepared who
  rw [ready] at prepared
  obtain ⟨covers, redeems⟩ := prepared
  have covers : Covers world.state.resetTokens revoked := covers rfl rfl
  obtain ⟨same, found, usable⟩ := redeems id now rfl
  cases got.symm.trans found
  obtain ⟨member, same⟩ := Table.get_eq_some_iff.mp got
  have retires := (retires_markUsed id now).comp (retires_revokedIn revoked at')
  have ended : ∀ row ∈ world.state.resetTokens, ¬ ((row.revokedIn revoked at').markUsed id now).live :=
    fun row inside live => covers.revoked at' inside ((retires_markUsed id now).live _ live)
  have rewritten := Table.mapRows_mapRows world.state.resetTokens _ _ (revokedIn_id revoked at') (markUsed_id id now)
  refine tidy.commit retires rewritten ?_ ?_
  · intro other _ changed
    rw [ready]
    by_cases held : other.id ∈ revoked
    · exact .inl (.inl held)
    · refine .inl (.inr ?_)
      by_contra different
      rw [revokedIn_of_not_mem held, PortalUserResetToken.markUsed, if_neg fun equal => different equal.symm] at changed
      exact changed rfl
  · have consistent := tidy.consistent.mapRows retires [.passwordChanged, .accepted row now] (fun _ => ended)
      (by simp) ?_ ?_
    · rw [← rewritten] at consistent
      exact consistent
    · intro accepted time entry
      obtain ⟨rfl, -⟩ : accepted = row ∧ time = now := by simpa using entry
      exact ⟨accepted, member, rfl, ended accepted member⟩
    · refine ⟨by simp, ?_, tidy.consistent.justifies⟩
      rintro accepted time entry
      cases entry
      exact tidy.consistent.justified member usable

theorem waits_of_keeps {κ : Type} {holds : Progress → κ → Prop} {session : Progress}
    (keeps : ∀ key, holds session key → holds (world.sessions who) key) : Waits holds world who session :=
  fun key taken => .inl (keeps key taken)

theorem waits_of_free {holds : Progress → Unit → Prop} (free : Available holds world who ()) (session : Progress) :
    Waits holds world who session := fun _ _ => .inr free

theorem Tidy.visit (tidy : Tidy world) {purpose : Purpose} {left : Nat} {rows revoked : List Int} {id : Int}
    {row : PortalUserResetToken} (revoking : world.sessions who = .revoking purpose left rows revoked)
    (free : Available HoldsToken world who id) (got : world.state.resetTokens.get id = some row) :
    Tidy (world.move who world.state
      (.revoking purpose left (rows.erase id) (if row.live then id :: revoked else revoked))) := by
  have prepared := tidy.prepared who
  rw [revoking] at prepared
  refine tidy.stay (waits_of_keeps ?_) ?_ ⟨?_, prepared.2⟩
  · intro key holds
    rw [revoking]
    exact holds
  · intro key holds
    rw [revoking]
    rcases holds with member | purposed
    · split at member
      · rcases List.mem_cons.mp member with rfl | before
        · exact .inr free
        · exact .inl (.inl before)
      · exact .inl (.inl member)
    · exact .inl (.inr purposed)
  · intro holds other member live
    by_cases same : other.id = id
    · have equal : other = row := by
        rw [← same, Table.get_of_mem member] at got
        exact Option.some.inj got
      rw [← equal, if_pos live, same]
      exact List.mem_append_right _ List.mem_cons_self
    · rcases List.mem_append.mp (prepared.1 holds other member live) with waiting | before
      · exact List.mem_append_left _ ((List.mem_erase_of_ne same).mpr waiting)
      · refine List.mem_append_right _ ?_
        split
        · exact List.mem_cons_of_mem _ before
        · exact before

theorem tidy_step {state : Account} {session : Progress} (tidy : Tidy world) (allowed : Resets world who state session)
    (inTime : InTime world who state session) : Tidy (world.move who state session) := by
  have prepared := tidy.prepared who
  cases allowed with
  | abandon => exact tidy.stay (waits_idle fun _ held => held) (waits_idle fun _ held => held) trivial
  | lockToIssue token expiresAt idle free admits =>
    refine tidy.stay (waits_of_free free _) ?_ ⟨fun _ left => absurd left one_ne_zero, by simp⟩
    intro id holds
    simp [HoldsToken, Purpose.holdsToken] at holds
  | issue row now ready numbered random made => exact tidy.issue ready now numbered random
  | undelivered now mailing free => exact tidy.mark free .failed (some now)
  | lockToConfirm mailing free =>
    split
    · exact tidy.stay (waits_of_free free _) (fun _ holds => holds.elim) trivial
    · exact tidy.stay (waits_of_free free _) (fun _ holds => holds.elim) trivial
  | confirm confirming free => exact tidy.mark free .sent none
  | outdated now stale free => exact tidy.mark free .failed (some now)
  | find now idle member usable => exact tidy.stay (fun _ holds => holds.elim) (fun _ holds => holds.elim) trivial
  | allow found admits => exact tidy.stay (fun _ holds => holds.elim) (fun _ holds => holds.elim) trivial
  | lockToReset admitted free admits => exact tidy.stay (waits_of_free free _) (fun _ holds => holds.elim) trivial
  | lockToken locked free got usable =>
    refine tidy.stay (waits_of_keeps ?_) ?_ ⟨fun _ left => absurd left one_ne_zero, ?_⟩
    · intro key _
      rw [locked]
      exact trivial
    · rintro key (member | rfl)
      · cases member
      · exact .inr free
    · rintro row now ⟨⟩
      exact ⟨_, got, usable⟩
  | reset at' ready got => exact tidy.reset ready at' got
  | read request idle =>
    refine tidy.stay (fun _ holds => absurd holds (by simp [HoldsUser, Purpose.holdsUser])) ?_ ⟨?_, by simp⟩
    · intro id holds
      simp [HoldsToken, Purpose.holdsToken] at holds
    · intro holds
      cases holds
  | @change request foundActive foundBlocked revoked now ready free =>
    refine tidy.change ready now ?_
    intro ending
    refine inTime _ _ _ _ ready ending ?_
    intro unchanged
    have history := congrArg (fun account => account.history.length) unchanged
    have entered : (request.entries ++ world.state.history).length = world.state.history.length := history
    rw [List.length_append] at entered
    exact ending (List.eq_nil_of_length_eq_zero (by omega))
  | snapshot ready =>
    rw [ready] at prepared
    refine tidy.stay (waits_of_keeps ?_) (waits_of_keeps ?_) ⟨fun _ => covers_liveIds _ _, prepared.2⟩
    · intro key holds
      rw [ready]
      exact holds
    · intro key holds
      rw [ready]
      exact holds
  | visit revoking waiting free got => exact tidy.visit revoking free got
  | finish revoking =>
    rw [revoking] at prepared
    refine tidy.stay (waits_of_keeps ?_) (waits_of_keeps ?_) ⟨fun holds _ => prepared.1 holds, prepared.2⟩
    · intro key holds
      rw [revoking]
      exact holds
    · intro key holds
      rw [revoking]
      exact holds

theorem tidy_start (isActive isBlocked : Bool) : Tidy (.quiet (.start isActive isBlocked) .idle) where
  users _ _ _ _ held := held.elim
  tokens _ _ _ _ held := held.elim
  prepared _ := trivial
  consistent := by
    constructor <;> simp [World.quiet, Account.start, Justifies]

end Steps

section Runs

/-- Every acceptance in any run is justified, and one token at most is usable. -/
theorem reset_tokens_safe {isActive isBlocked : Bool} {last : World Account Progress}
    (reached : Reaches ResetsInTime (.quiet (.start isActive isBlocked) .idle) last) : TokensSafe last.state := by
  have tidy : Tidy last := reached.keeps Tidy (tidy_start isActive isBlocked) fun _ _ _ _ tidy allowed =>
    tidy_step tidy allowed.1 allowed.2
  refine ⟨tidy.consistent.justifies, ?_⟩
  intro first left second right now one two
  exact tidy.consistent.single first left second right (live_of_usable one) (live_of_usable two)

variable {world : World Account Progress}

theorem inTime_move {who : Nat} {state next : Account} {session last : Progress}
    (different : ∀ request foundActive foundBlocked revoked,
      session ≠ .ready (.change request foundActive foundBlocked) 0 revoked) :
    InTime (world.move who state session) who next last := by
  intro request foundActive foundBlocked revoked ready
  rw [World.move_self] at ready
  exact absurd ready (different request foundActive foundBlocked revoked)

def pendingToken : PortalUserResetToken := ⟨1, 7, "secret", 100, none, .pending, none⟩

def sentToken : PortalUserResetToken := { pendingToken with deliveryState := .sent }

def issuedAccount : Account := ((Account.start true false).revoke [] 0 []).insert pendingToken

def deliveredAccount : Account := issuedAccount.mark 1 .sent none

/-- A token is issued and delivered while nobody else holds anything. -/
theorem delivers (state : world.state = .start true false) (idle : world.sessions 0 = .idle)
    (user : Available HoldsUser world 0 ()) (token : Available HoldsToken world 0 1) :
    Reaches ResetsInTime world (world.move 0 deliveredAccount .idle) := by
  have locked : Reaches ResetsInTime world (world.move 0 (.start true false) (.ready (.issue "secret" 100) 1 [])) := by
    refine Reaches.step .refl 0 ⟨?_, ?_⟩
    · rw [← state]
      exact .lockToIssue "secret" 100 idle user (by rw [state]; exact ⟨rfl, rfl⟩)
    · rintro request foundActive foundBlocked revoked ready
      cases idle.symm.trans ready
  have searched : Reaches ResetsInTime world (world.move 0 (.start true false) (.revoking (.issue "secret" 100) 0 [] [])) :=
    locked.again ⟨.snapshot (World.move_self _ _ _ _), inTime_move (by simp)⟩
  have revoked : Reaches ResetsInTime world (world.move 0 (.start true false) (.ready (.issue "secret" 100) 0 [])) :=
    searched.again ⟨.finish (World.move_self _ _ _ _), inTime_move (by simp)⟩
  have issued : Reaches ResetsInTime world (world.move 0 issuedAccount (.mailing 1)) :=
    revoked.again ⟨.issue pendingToken 0 (World.move_self _ _ _ _) rfl nofun ⟨rfl, rfl, rfl, rfl, rfl⟩, inTime_move (by simp)⟩
  have relocked : Reaches ResetsInTime world (world.move 0 issuedAccount (.confirming 1)) :=
    issued.again ⟨.lockToConfirm (World.move_self _ _ _ _) (user.move _ _), inTime_move (by simp)⟩
  exact relocked.again ⟨.confirm (World.move_self _ _ _ _) (token.move _ _), inTime_move (by simp)⟩

def redeem (account : Account) : Account :=
  (account.revoke [1] 5 []).use 1 5 [.passwordChanged, .accepted sentToken 5]

theorem redeems {account : Account} (state : world.state = account) (tokens : account.resetTokens.rows = [sentToken])
    (admits : account.admits) (idle : world.sessions 0 = .idle) (user : Available HoldsUser world 0 ())
    (token : Available HoldsToken world 0 1) : Reaches ResetsInTime world (world.move 0 (redeem account) .idle) := by
  have got : account.resetTokens.get 1 = some sentToken := by
    rw [Table.get, tokens]
    rfl
  have found : Reaches ResetsInTime world (world.move 0 account (.found 1 5)) := by
    refine Reaches.step .refl 0 ⟨?_, ?_⟩
    · subst state
      exact .find 5 idle (Table.get_eq_some_iff.mp got).1 (by decide)
    · rintro request foundActive foundBlocked revoked ready
      cases idle.symm.trans ready
  have admitted : Reaches ResetsInTime world (world.move 0 account (.admitted 1 5)) :=
    found.again ⟨.allow (World.move_self _ _ _ _) admits, inTime_move (by simp)⟩
  have locked : Reaches ResetsInTime world (world.move 0 account (.locked 1 5)) :=
    admitted.again ⟨.lockToReset (World.move_self _ _ _ _) (user.move _ _) admits, inTime_move (by simp)⟩
  have held : Reaches ResetsInTime world (world.move 0 account (.ready (.reset 1 5) 1 [])) :=
    locked.again ⟨.lockToken (World.move_self _ _ _ _) (token.move _ _) got (by decide), inTime_move (by simp)⟩
  have searched : Reaches ResetsInTime world (world.move 0 account (.revoking (.reset 1 5) 0 (account.liveIds []) [])) :=
    held.again ⟨.snapshot (World.move_self _ _ _ _), inTime_move (by simp)⟩
  have live : account.liveIds [] = [1] := by
    rw [Account.liveIds, Table.select, tokens]
    rfl
  rw [live] at searched
  have visited : Reaches ResetsInTime world (world.move 0 account (.revoking (.reset 1 5) 0 [] [1])) :=
    searched.again ⟨.visit (World.move_self _ _ _ _) List.mem_cons_self (token.move _ _) got, inTime_move (by simp)⟩
  have revoked : Reaches ResetsInTime world (world.move 0 account (.ready (.reset 1 5) 0 [1])) :=
    visited.again ⟨.finish (World.move_self _ _ _ _), inTime_move (by simp)⟩
  exact revoked.again ⟨.reset 5 (World.move_self _ _ _ _) got, inTime_move (by simp)⟩

theorem delivered_token_redeemed : ∃ last, Reaches ResetsInTime (.quiet (.start true false) .idle) last ∧
    last.state.history = [.passwordChanged, .accepted sentToken 5, .inserted 1] ∧ TokensSafe last.state := by
  let start : World Account Progress := .quiet (.start true false) .idle
  have delivered : Reaches ResetsInTime start (start.move 0 deliveredAccount .idle) :=
    delivers rfl rfl (fun _ _ => id) (fun _ _ => id)
  have redeemed : Reaches ResetsInTime (start.move 0 deliveredAccount .idle) _ :=
    redeems rfl rfl ⟨rfl, rfl⟩ (World.move_self _ _ _ _) (Available.move (fun _ _ => id) _ _)
      (Available.move (fun _ _ => id) _ _)
  exact ⟨_, delivered.trans redeemed, rfl, reset_tokens_safe (delivered.trans redeemed)⟩

/-- An administrator's new password is committed after a token that its statement did not
see, and the token still sets another one. -/
theorem token_outlives_password : ∃ last, Reaches Resets (.quiet (.start true false) .idle) last ∧ ¬ TokensSafe last.state := by
  let start : World Account Progress := .quiet (.start true false) .idle
  let purpose : Purpose := .change .setUserPassword true false
  let changed : Account := (deliveredAccount.revoke [] 3 [.passwordChanged]).change .setUserPassword true false
  let waiting : World Account Progress := start.move 1 (.start true false) (.ready purpose 0 [])
  let delivered : World Account Progress := waiting.move 0 deliveredAccount .idle
  let committed : World Account Progress := delivered.move 1 changed .idle
  have unheld {κ : Type} (holds : Progress → κ → Prop) (key : κ) (idle : ¬ holds .idle key)
      (unchanging : ¬ holds (.ready purpose 0 []) key) (other : Nat) : ¬ holds (waiting.sessions other) key :=
    World.forall_move (fun session => ¬ holds session key) unchanging (fun _ _ => idle) other
  have free {κ : Type} (holds : Progress → κ → Prop) (key : κ) (idle : ¬ holds .idle key)
      (unchanging : ¬ holds (.ready purpose 0 []) key) (other : Nat) : ¬ holds (committed.sessions other) key :=
    World.forall_move (fun session => ¬ holds session key) idle (fun other _ =>
      World.forall_move (fun session => ¬ holds session key) idle (fun other _ =>
        unheld holds key idle unchanging other) other) other
  have tokenless : ¬ HoldsToken (.ready purpose 0 []) 1 := by simp [HoldsToken, Purpose.holdsToken, purpose]
  have read : Reaches Resets start (start.move 1 (.start true false) (.ready purpose 1 [])) :=
    Reaches.step .refl 1 (.read .setUserPassword rfl)
  have searched : Reaches Resets start (start.move 1 (.start true false) (.revoking purpose 0 [] [])) :=
    read.again (.snapshot (World.move_self _ _ _ _))
  have revoked : Reaches Resets start waiting := searched.again (.finish (World.move_self _ _ _ _))
  have sent : Reaches ResetsInTime waiting delivered :=
    delivers rfl rfl (fun other _ => unheld HoldsUser () id nofun other)
      (fun other _ => unheld HoldsToken 1 id tokenless other)
  have changes : Reaches Resets delivered committed := by
    refine Reaches.step .refl 1 (.change 3 rfl ?_)
    rintro - other -
    exact World.forall_move (fun session => ¬ HoldsUser session ()) id
      (fun other _ => unheld HoldsUser () id nofun other) other
  have redeemed : Reaches ResetsInTime committed (committed.move 0 (redeem changed) .idle) :=
    redeems rfl rfl ⟨rfl, rfl⟩ rfl (fun other _ => free HoldsUser () id nofun other)
      (fun other _ => free HoldsToken 1 id tokenless other)
  have lax {first last : World Account Progress} (reached : Reaches ResetsInTime first last) : Reaches Resets first last :=
    reached.mono fun _ _ _ _ allowed => allowed.1
  refine ⟨_, ((revoked.trans (lax sent)).trans changes).trans (lax redeemed), ?_⟩
  rintro ⟨⟨-, accepted, -⟩, -⟩
  have justified : Justified [.passwordChanged, .inserted 1] sentToken 5 := accepted sentToken 5 rfl
  exact justified.unended .passwordChanged trivial (.inl ⟨rfl, List.mem_cons_self⟩)

end Runs

end Dagmar.Credentials.Proofs
