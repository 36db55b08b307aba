import RatingServer.Accounts
import RatingServer.Dispatch
import RatingServer.Evaluator
import RatingServer.Store.MeanModel

/-!
# Stores

A store keeps the data of a server in memory and performs the operations of the
service on it. The recommender's model is learned when the store opens and when
its tasks run; what is written in between reaches the estimates only then.
-/

namespace RatingServer

/-- A store. -/
structure Store where
  /-- The accounts of the server. -/
  accounts : Accounts := .empty
  /-- The evaluators of the server. -/
  evaluators : EvaluatorDirectory := .empty
  /-- The configuration of the server. -/
  config : ServerConfig := .default
  /-- The data. -/
  data : Dataset := {}
  /-- What the recommender has learned. -/
  model : MeanModel := {}
  /-- Whether the store is open. -/
  isOpen : Bool := false
  deriving DecidableEq

namespace Store

/-- An empty store, with accounts and the names of the evaluators, which are bound
where the configuration says. -/
def of (config : ServerConfig) (accounts : Accounts) (evaluators : List String) : Store where
  accounts := accounts
  evaluators := .ofNames evaluators config.host config.ports.evaluator
  config := config

/-- Learns from the ratings. -/
def learn (s : Store) : Store := { s with model := .learn s.data }

/-- Opens the store with a configuration. -/
def openWith (s : Store) (c : ServerConfig) : Store := { s.learn with config := c, isOpen := true }

/-- Closes the store. -/
def close (s : Store) : Store := { s with isOpen := false }

/-- Takes a new configuration. -/
def reconfigure (s : Store) (c : ServerConfig) : Store := { s with config := c }

/-- Runs the periodic tasks. -/
def runTasks (s : Store) : Store := s.learn

/-- The error of every query in SQL. -/
def noSql : CallError :=
  .failure (.unsupported "SQL queries are not supported by the in-memory store")

/-- A cursor over rows, if there are any. -/
def cursor? (rows : List α) : Option (RowCursor α) :=
  if rows.isEmpty then none else some (.of rows)

/-- The unit of the sample profiles. -/
def sampleUnit : String := "sample"

/-- A copy of all data. -/
def snapshot (s : Store) : Snapshot where
  config := s.config.toSettings
  userRatings := s.data.vectors .user
  userProfiles := s.data.rows Side.user.name
  itemProfiles := s.data.rows Side.item.name
  nominals := s.data.nominals.values
  externalRecords := s.data.external.entries

/-- The store with the data that a change left, and whether it changed anything. -/
def changed (s : Store) (r : Bool × Dataset) : Except CallError Bool × Store :=
  (.ok r.1, { s with data := r.2 })

/-- Performs an operation. -/
def perform : Service Store := fun op s =>
  match op with
  | .estimate t items =>
    (.ok (MeanModel.nonempty? (s.model.estimates t.ratings items.keys)), s)
  | .recommend t limit => (.ok (s.model.recommend t.ratings (s.data.ids .item) limit), s)
  | .recommendUser user limit =>
    let known := (s.data.vector? .user user).getD { id := user, side := .user }
    (.ok (s.model.recommend known (s.data.ids .item) limit), s)
  | .insertRatings v => s.changed (s.data.insertRatings v)
  | .updateRatings v => s.changed (s.data.updateRatings v)
  | .deleteRatings v => s.changed (s.data.deleteRatings v)
  | .ids side => (.ok (cursor? (s.data.ids side)), s)
  | .ratingsOf side id => (.ok (s.data.vector? side id), s)
  | .allRatings side => (.ok (cursor? (s.data.vectors side)), s)
  | .ratingsBySql _ _ => (.error noSql, s)
  | .deleteRatingsOf side id => s.changed (s.data.deleteVector side id)
  | .profileOf side id => (.ok (s.data.profile? side.name id), s)
  | .profileOfExternal side value => (.ok (s.data.profileOfExternal? side.name value), s)
  | .profiles side => (.ok (cursor? (s.data.rows side.name)), s)
  | .profilesBySql _ _ => (.error noSql, s)
  | .attributes side => (.ok (s.data.attributes? side.name), s)
  | .insertProfile side p r => s.changed (true, s.data.insertWithRecord side.name p r)
  | .updateProfile side p => s.changed (s.data.updateProfile side.name p)
  | .deleteProfile side id => s.changed (s.data.deleteProfile side.name id)
  | .externalOf side id => (.ok (s.data.external.get? (Dataset.recordOf side.name id)), s)
  | .nominals unit attr => (.ok (s.data.nominals.get? ⟨unit, attr⟩), s)
  | .insertNominal unit attr n => s.changed (true, s.data.insertNominal ⟨unit, attr⟩ n)
  | .updateNominal unit attr n => s.changed (s.data.updateNominal ⟨unit, attr⟩ n)
  | .deleteNominals unit attr =>
    s.changed (s.data.nominals.contains ⟨unit, attr⟩,
      { s.data with nominals := s.data.nominals.erase ⟨unit, attr⟩ })
  | .external i => (.ok (s.data.external.get? i), s)
  | .insertExternal i e =>
    s.changed (true, { s.data with external := s.data.external.insert i e })
  | .updateExternal i e => s.changed (s.data.updateExternal i e)
  | .deleteExternal i =>
    s.changed (s.data.external.contains i, { s.data with external := s.data.external.erase i })
  | .validateAccount account password required =>
    (.ok (s.accounts.validate account password required), s)
  | .findSample c => (.ok (s.data.find? sampleUnit c), s)
  | .samplesBySql _ => (.error noSql, s)
  | .sampleAttributes => (.ok (s.data.attributes? sampleUnit), s)
  | .insertSample p => s.changed (true, s.data.insertProfile sampleUnit p)
  | .updateSample p => s.changed (s.data.updateProfile sampleUnit p)
  | .deleteSamples c => s.changed (s.data.deleteMatching sampleUnit c)
  | .findRow unit c => (.ok (s.data.find? unit c), s)
  | .rowsBySql _ => (.error noSql, s)
  | .rowAttributes unit => (.ok (s.data.attributes? unit), s)
  | .insertRow unit p => s.changed (true, s.data.insertProfile unit p)
  | .updateRow unit p => s.changed (s.data.updateProfile unit p)
  | .deleteRows unit c => s.changed (s.data.deleteMatching unit c)
  | .snapshot => (.ok (some s.snapshot), s)
  | .settings => (.ok (some s.config.toSettings), s)
  | .evaluator name => (.ok (s.evaluators.get? name), s)
  | .evaluatorNames => (.ok s.evaluators.keys, s)

end Store

end RatingServer
