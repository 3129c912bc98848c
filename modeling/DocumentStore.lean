import DocumentStore.Proofs.Dataset.Parts
import DocumentStore.Proofs.MediaType
import DocumentStore.Proofs.Collection.Acceptance
import DocumentStore.Proofs.Database.Fetch
import DocumentStore.Proofs.Dataset.SupplyOrder
import DocumentStore.Proofs.Entity.Seeding
import DocumentStore.Proofs.Filter.Reordering
import DocumentStore.Proofs.Filter.Selection
import DocumentStore.Proofs.Join.Declaring
import DocumentStore.Proofs.Join.Mutual
import DocumentStore.Proofs.Json.Denotation
import DocumentStore.Proofs.Number.Recognition
import DocumentStore.Proofs.Session.History
import DocumentStore.Proofs.Session.Isolation
import DocumentStore.Proofs.Session.Order
import DocumentStore.Proofs.Join.Independence
import DocumentStore.Proofs.Session.Effect
import DocumentStore.Proofs.Session.Updating
import DocumentStore.Proofs.Session.Commuting
import DocumentStore.Proofs.Session.Creating
import DocumentStore.Proofs.Session.Names
import DocumentStore.Proofs.Entity.Conversion
import DocumentStore.Proofs.Join.Recipe
