import MyOwnMesh.Semantic.Binding
import MyOwnMesh.Reliable.Session
import MyOwnMesh.Topology.Routing
import MyOwnMesh.EndpointAuth.Agreement
import MyOwnMesh.Resource.MailboxSpec
import MyOwnMesh.Engine.FactRequest
import MyOwnMesh.Realtime.UnitCopies
import MyOwnMesh.Semantic.StorageRoundTrip
import MyOwnMesh.Topology.ParentRotation
import MyOwnMesh.Custody.Enrollment
import MyOwnMesh.Topology.Ring
import MyOwnMesh.Topology.Edges
import MyOwnMesh.Control.Framing
import MyOwnMesh.Protocol.InventoryPages
import MyOwnMesh.Session.PromotedSlot
import MyOwnMesh.Recovery.Demand
import MyOwnMesh.Custody.Redelivery
import MyOwnMesh.Signaling.Ingress
import MyOwnMesh.Gateway.Channels
import MyOwnMesh.Resource.LeasedMapRun
import MyOwnMesh.Resource.Observation
import MyOwnMesh.Updater.Pending
import MyOwnMesh.Semantic.SelectorAncestry
import MyOwnMesh.Semantic.IndexResidency
import MyOwnMesh.Semantic.Eviction
import MyOwnMesh.Semantic.ResolutionTier
import MyOwnMesh.Semantic.RunGuarantees
