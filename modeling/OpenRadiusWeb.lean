import OpenRadiusWeb.Lib.Effects
import OpenRadiusWeb.Lib.Traced
import OpenRadiusWeb.Lib.Transcript
import OpenRadiusWeb.Lib.Dict
import OpenRadiusWeb.Lib.Text
import OpenRadiusWeb.Lib.Sorting
import OpenRadiusWeb.Lib.Paths
import OpenRadiusWeb.Lib.Base64
import OpenRadiusWeb.ConfigManager.Rows
import OpenRadiusWeb.ConfigManager.Store
import OpenRadiusWeb.ConfigManager.Generate
import OpenRadiusWeb.ConfigManager.CertFiles
import OpenRadiusWeb.ConfigManager.CertHash
import OpenRadiusWeb.ConfigManager.Apply
import OpenRadiusWeb.ConfigManager.ManagedFiles
import OpenRadiusWeb.ConfigManager.StoredHash
import OpenRadiusWeb.ConfigManager.Idempotence
import OpenRadiusWeb.ConfigWatcher.Reload
import OpenRadiusWeb.Coa.Packet
import OpenRadiusWeb.Coa.SendPacket
import OpenRadiusWeb.Policy.Values
import OpenRadiusWeb.Policy.Evaluator
import OpenRadiusWeb.Policy.Engine
import OpenRadiusWeb.Policy.Delivery
import OpenRadiusWeb.Policy.Simulate
import OpenRadiusWeb.Coa.Session
import OpenRadiusWeb.Coa.Manager
import OpenRadiusWeb.Coa.Schedule
import OpenRadiusWeb.Coa.Redelivery
import OpenRadiusWeb.Coa.Agreement
import OpenRadiusWeb.Switch.BouncePort
import OpenRadiusWeb.Policy.Dispatch
import OpenRadiusWeb.Lib.Redis
import OpenRadiusWeb.Lib.Lockout
import OpenRadiusWeb.Login.Service
import OpenRadiusWeb.Login.Section
import OpenRadiusWeb.Login.Simulation
import OpenRadiusWeb.Login.Bounds
import OpenRadiusWeb.Radius.Request
import OpenRadiusWeb.Radius.Authorize
import OpenRadiusWeb.ConfigManager.SelectedPair
import OpenRadiusWeb.Lib.Program
import OpenRadiusWeb.Lib.Session
import OpenRadiusWeb.Certificates.Rows
import OpenRadiusWeb.Certificates.Service
import OpenRadiusWeb.Certificates.AutoRenewal
import OpenRadiusWeb.Certificates.RenewalPass
import OpenRadiusWeb.Lib.ReadCommitted
import OpenRadiusWeb.Certificates.Requests
import OpenRadiusWeb.Certificates.SingleActive
import OpenRadiusWeb.Certificates.Interleaving
import OpenRadiusWeb.Certificates.Updates
import OpenRadiusWeb.Certificates.Steps
import OpenRadiusWeb.Certificates.Runs
import OpenRadiusWeb.Certificates.Files
import OpenRadiusWeb.Secrets.Vault
import OpenRadiusWeb.Secrets.Rotation
import OpenRadiusWeb.Secrets.Resumption
import OpenRadiusWeb.Realms.Rows
import OpenRadiusWeb.Realms.Service
import OpenRadiusWeb.Realms.Requests
import OpenRadiusWeb.Realms.Consistency
import OpenRadiusWeb.Secrets.Authenticity
import OpenRadiusWeb.Secrets.Walk
import OpenRadiusWeb.Secrets.Migration
import OpenRadiusWeb.Radius.Notation
import OpenRadiusWeb.Radius.PostAuth
import OpenRadiusWeb.Login.Expiry
import OpenRadiusWeb.Lib.Csv
import OpenRadiusWeb.Mab.Import
import OpenRadiusWeb.Mab.Records
import OpenRadiusWeb.Mab.BulkImport
import OpenRadiusWeb.Mab.RoundTrip
import OpenRadiusWeb.Coa.Codec
import OpenRadiusWeb.Coa.Operations
import OpenRadiusWeb.Coa.ByUsername
import OpenRadiusWeb.Coa.TunnelVlan
import OpenRadiusWeb.Policy.SharedEvaluator
import OpenRadiusWeb.Policy.Comparison
import OpenRadiusWeb.Policy.Equality
import OpenRadiusWeb.Policy.Fields
import OpenRadiusWeb.Policy.Outcomes
import OpenRadiusWeb.Lib.Json
import OpenRadiusWeb.Jsonb.Repr
import OpenRadiusWeb.Jsonb.Values
import OpenRadiusWeb.Jsonb.Replaced
import OpenRadiusWeb.Jsonb.Fields
import OpenRadiusWeb.Jsonb.Stored
import OpenRadiusWeb.ConfigManager.NeedsApply
import OpenRadiusWeb.Radius.GroupVlans
import OpenRadiusWeb.Lib.Replace
import OpenRadiusWeb.Lib.Utf8
import OpenRadiusWeb.Lib.LdapFilter
import OpenRadiusWeb.Radius.SearchFilter
import OpenRadiusWeb.Lib.DistinguishedName
import OpenRadiusWeb.Radius.GroupNames
import OpenRadiusWeb.Radius.FailureReason
import OpenRadiusWeb.EventService.AdEvents
import OpenRadiusWeb.ConfigManager.GeneratedNames
import OpenRadiusWeb.ConfigManager.HashedRows
import OpenRadiusWeb.Lib.CutSuffix
import OpenRadiusWeb.Certificates.RenewalChain
import OpenRadiusWeb.Lib.ConfigText
import OpenRadiusWeb.ConfigManager.LdapTemplate
import OpenRadiusWeb.Lib.Containment
import OpenRadiusWeb.ConfigManager.CertPaths
import OpenRadiusWeb.Lib.SetClause
import OpenRadiusWeb.Gateway.SafeSql
import OpenRadiusWeb.Lib.Pattern
import OpenRadiusWeb.Shared.DbUrlSafe
import OpenRadiusWeb.Lib.Paging
import OpenRadiusWeb.Gateway.ListPages
import OpenRadiusWeb.Lib.Doubles
import OpenRadiusWeb.Lib.Suppression
import OpenRadiusWeb.Discovery.PassiveMonitor
import OpenRadiusWeb.Lib.Upsert
import OpenRadiusWeb.Inventory.Tables
import OpenRadiusWeb.Inventory.Discovered
import OpenRadiusWeb.Inventory.Recorded
import OpenRadiusWeb.ConfigManager.Success
import OpenRadiusWeb.Lib.Joint
import OpenRadiusWeb.Lib.Commits
import OpenRadiusWeb.ConfigWatcher.Requests
import OpenRadiusWeb.Lib.Announcement
import OpenRadiusWeb.ConfigWatcher.UpToDate
import OpenRadiusWeb.Lib.Statements
import OpenRadiusWeb.ConfigManager.ClientsConf
import OpenRadiusWeb.ConfigManager.ProxyConf
import OpenRadiusWeb.ConfigManager.LeftOver
import OpenRadiusWeb.ConfigManager.SiteTemplates
import OpenRadiusWeb.ConfigManager.SiteModules
import OpenRadiusWeb.ConfigManager.SiteClosure
import OpenRadiusWeb.ConfigManager.SiteLinks
import OpenRadiusWeb.ConfigManager.EapFiles
import OpenRadiusWeb.Lib.Sides
import OpenRadiusWeb.Lib.Isolation
import OpenRadiusWeb.Certificates.Tenants
import OpenRadiusWeb.Gateway.Settings
import OpenRadiusWeb.Gateway.SettingsSecrecy
