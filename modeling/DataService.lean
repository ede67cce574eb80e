import DataService.Lib.StepSystem
import DataService.Lib.Coroutine
import DataService.Lib.Frontier
import DataService.Lib.RemoteStore
import DataService.Lib.OrderedDict
import DataService.Lib.ExpiringStore
import DataService.Basemap.Contact
import DataService.Basemap.RedisIndependence
import DataService.WeatherStations.RevokeReport
import DataService.WeatherStations.RegistryReach
import DataService.WeatherStations.SeriesCache
import DataService.Sync.MirroredIndex
import DataService.Sync.IndexLifetime
import DataService.Sync.BaseSyncService
import DataService.Basemap.SweepExclusion
import DataService.Basemap.SingleFlight
import DataService.Basemap.Tombstone
import DataService.WeatherStations.BucketAgreement
import DataService.Sync.SnapshotAgreement
import DataService.WeatherStations.OutageRuns
import DataService.WeatherStations.OrderRuns
import DataService.Basemap.BusyLoop
import DataService.Basemap.SleepAgreement
import DataService.Basemap.Stragglers
import DataService.WeatherStations.CustomKeys
import DataService.WeatherStations.Ingest
import DataService.WeatherStations.TokenSettling
import DataService.WeatherStations.Stampede
import DataService.WeatherStations.PivotHistory
import DataService.WeatherStations.SnapshotFetch
import DataService.Sync.DegradedListing
import DataService.Sync.EmptyPeriods
import DataService.Sync.ServedOverlays
import DataService.Sync.Reconciliation
import DataService.Sync.StrayNames
import DataService.Basemap.DeadUpstream
import DataService.Basemap.HttpTileClient
import DataService.Basemap.ReaderOutage
import DataService.Basemap.CooldownEscalation
import DataService.Basemap.WatermarkRuns
import DataService.Sync.ListingOutage
import DataService.Sync.MslpIndex
import DataService.Sync.OverlayLatch
import DataService.Basemap.TileEnumeration
import DataService.Lib.IsoOrder
import DataService.Metrics.MetricsStore
import DataService.Sync.GfsObjectNames
import DataService.Sync.TileKeys
import DataService.Sync.TileAliasing
import DataService.Sync.TileNames
import DataService.Metrics.MemorySampling
import DataService.Settings.Flatten
import DataService.WeatherStations.RegistryDamage
import DataService.Lib.Culprit
import DataService.WeatherStations.FetchErrors
import DataService.WeatherStations.RegistryLayout
import DataService.WeatherStations.RegistryReading
import DataService.WeatherStations.RegistryRoundTrip
import DataService.Sync.WorkerLock
import DataService.Sync.TileServing
import DataService.Sync.AvailabilityMemo
import DataService.Sync.LogThrottle
import DataService.Sync.DomainSync
import DataService.Sync.TileClients
import DataService.Metrics.MemoryEstimate
import DataService.App.Shutdown
import DataService.Metrics.SyncHistory
import DataService.Basemap.ProviderProbes
